import RustAsyncAwait.Library.Bytes

/-! `i32` in decimal: what its `Display` prints, and its `FromStr`. -/

namespace RustAsyncAwait.Library

/-- The digits of a number, highest first. -/
def digits (number : Nat) : List UInt8 :=
  if number < 10 then [UInt8.ofNat (48 + number)] else digits (number / 10) ++ [UInt8.ofNat (48 + number % 10)]

def minus : UInt8 := 45

def plus : UInt8 := 43

def display (number : Int32) : List UInt8 :=
  if number.toInt < 0 then minus :: digits number.toInt.natAbs else digits number.toInt.toNat

/-- An `i32` with this value, if there is one. -/
def checked (value : Int) : Option Int32 :=
  if -2147483648 ≤ value ∧ value ≤ 2147483647 then some (Int32.ofInt value) else none

def to_digit (byte : UInt8) : Option Nat := if 48 ≤ byte.toNat ∧ byte.toNat ≤ 57 then some (byte.toNat - 48) else none

/-- The loop over the digits; those after a minus sign are subtracted. -/
def parse_digits (sign : Int) (result : Int32) : List UInt8 → Option Int32
  | [] => some result
  | byte :: rest =>
    (checked (result.toInt * 10)).bind fun tens =>
      (to_digit byte).bind fun digit =>
        (checked (tens.toInt + sign * digit)).bind fun result => parse_digits sign result rest

/-- `str::parse::<i32>`, on the bytes of the text. -/
def parse (text : List UInt8) : Option Int32 :=
  match text with
  | [] => none
  | byte :: rest =>
    if rest = [] ∧ (byte = plus ∨ byte = minus) then none
    else if byte = plus then parse_digits 1 0 rest
    else if byte = minus then parse_digits (-1) 0 rest
    else parse_digits 1 0 (byte :: rest)

theorem checked_eq_some {value : Int} {number : Int32} : checked value = some number ↔ number.toInt = value := by
  have low := number.le_toInt
  have high := number.toInt_lt
  unfold checked
  constructor
  · intro fits
    obtain ⟨range, same⟩ := Option.ite_none_right_eq_some.mp fits
    cases same
    exact Int32.toInt_ofInt_of_le (by omega) (by omega)
  · intro same
    subst same
    rw [if_pos (by omega), Int32.ofInt_toInt]

/-- A digit of a number. -/
def Digit (byte : UInt8) : Prop := 48 ≤ byte.toNat ∧ byte.toNat ≤ 57

theorem digit_of_lt {number : Nat} (small : number < 10) :
    Digit (UInt8.ofNat (48 + number)) ∧ to_digit (UInt8.ofNat (48 + number)) = some number := by
  have value : (UInt8.ofNat (48 + number)).toNat = 48 + number := by
    rw [UInt8.toNat_ofNat']
    omega
  have digit : Digit (UInt8.ofNat (48 + number)) := by
    unfold Digit
    omega
  refine ⟨digit, ?_⟩
  unfold to_digit
  rw [if_pos (show _ ∧ _ from digit), value, Nat.add_sub_cancel_left]

theorem to_digit_digit {byte : UInt8} {digit : Nat} (found : to_digit byte = some digit) : Digit byte :=
  (Option.ite_none_right_eq_some.mp found).1

theorem digits_digit (number : Nat) : ∀ byte ∈ digits number, Digit byte := by
  induction number using Nat.strongRecOn with
  | ind number ih =>
    unfold digits
    split
    · rename_i small
      intro byte member
      rw [List.mem_singleton.mp member]
      exact (digit_of_lt small).1
    · intro byte member
      rcases List.mem_append.mp member with higher | last
      · exact ih (number / 10) (by omega) byte higher
      · rw [List.mem_singleton.mp last]
        exact (digit_of_lt (Nat.mod_lt _ (by decide))).1

theorem digits_ne_nil (number : Nat) : digits number ≠ [] := by
  unfold digits
  split <;> simp

/-- Reading the digits of a number gives the number, if it and its sign fit. -/
theorem parse_digits_digits {sign : Int} {number : Nat} {value : Int32} (rest : List UInt8)
    (unit : sign = 1 ∨ sign = -1) (fits : value.toInt = sign * number) :
    parse_digits sign 0 (digits number ++ rest) = parse_digits sign value rest := by
  induction number using Nat.strongRecOn generalizing value rest with
  | ind number ih =>
    have low := value.le_toInt
    have high := value.toInt_lt
    unfold digits
    split
    · rename_i small
      have tens : checked ((0 : Int32).toInt * 10) = some 0 := rfl
      have whole : checked ((0 : Int32).toInt + sign * number) = some value := by
        apply checked_eq_some.mpr
        rw [fits]
        exact (Int.zero_add _).symm
      simp only [List.singleton_append, parse_digits, tens, Option.bind_some, (digit_of_lt small).2, whole]
    · obtain ⟨higher, parsed⟩ : ∃ higher : Int32, higher.toInt = sign * (number / 10 : Nat) := by
        refine ⟨Int32.ofInt (sign * (number / 10 : Nat)), Int32.toInt_ofInt_of_le ?_ ?_⟩ <;>
          rcases unit with one | one <;> subst one <;> omega
      obtain ⟨tens, shifted⟩ : ∃ tens : Int32, tens.toInt = higher.toInt * 10 := by
        refine ⟨Int32.ofInt (higher.toInt * 10), Int32.toInt_ofInt_of_le ?_ ?_⟩ <;>
          rcases unit with one | one <;> subst one <;> omega
      have whole : checked (tens.toInt + sign * (number % 10 : Nat)) = some value := by
        apply checked_eq_some.mpr
        rw [fits, shifted, parsed]
        rcases unit with one | one <;> subst one <;> omega
      rw [List.append_assoc, ih (number / 10) (by omega) _ parsed]
      simp only [List.singleton_append, parse_digits, checked_eq_some.mpr shifted, Option.bind_some,
        (digit_of_lt (Nat.mod_lt number (show 0 < 10 by decide))).2, whole]

/-- Reading what has been printed gives the number back. -/
theorem parse_display (number : Int32) : parse (display number) = some number := by
  unfold display
  split
  · rename_i negative
    have read : parse_digits (-1) 0 (digits number.toInt.natAbs ++ []) = parse_digits (-1) number [] :=
      parse_digits_digits [] (.inr rfl) (by omega)
    rw [List.append_nil] at read
    have signed : digits number.toInt.natAbs ≠ [] := digits_ne_nil _
    simp only [parse, signed, false_and, if_false, show minus ≠ plus by decide, if_true, read]
    rfl
  · rename_i positive
    have read : parse_digits 1 0 (digits number.toInt.toNat ++ []) = parse_digits 1 number [] :=
      parse_digits_digits [] (.inl rfl) (by omega)
    rw [List.append_nil] at read
    cases text : digits number.toInt.toNat with
    | nil => exact absurd text (digits_ne_nil _)
    | cons byte rest =>
      have digit : Digit byte := digits_digit number.toInt.toNat byte (by rw [text]; exact List.mem_cons_self)
      have unsigned : byte ≠ plus ∧ byte ≠ minus := by
        constructor <;> intro same <;> subst same <;> exact absurd digit.1 (by decide)
      rw [text] at read
      simp only [parse, unsigned, or_self, and_false, if_false, read]
      rfl

/-- Only digits and a sign before them are read. -/
theorem parse_digits_digit {sign : Int} {result number : Int32} {text : List UInt8}
    (parsed : parse_digits sign result text = some number) : ∀ byte ∈ text, Digit byte := by
  induction text generalizing result with
  | nil => simp
  | cons byte rest ih =>
    obtain ⟨_, _, parsed⟩ := Option.bind_eq_some_iff.mp parsed
    obtain ⟨_, found, parsed⟩ := Option.bind_eq_some_iff.mp parsed
    obtain ⟨_, _, parsed⟩ := Option.bind_eq_some_iff.mp parsed
    exact List.forall_mem_cons.mpr ⟨to_digit_digit found, ih parsed⟩

theorem Digit.ascii {byte : UInt8} (digit : Digit byte) : byte.toNat < 128 := Nat.lt_of_le_of_lt digit.2 (by decide)

theorem parse_ascii {text : List UInt8} {number : Int32} (parsed : parse text = some number) :
    ∀ byte ∈ text, byte.toNat < 128 := by
  cases text with
  | nil => cases parsed
  | cons byte rest =>
    obtain ⟨_, signed⟩ := Option.ite_none_left_eq_some.mp parsed
    have tail {sign : Int} (read : parse_digits sign 0 rest = some number) : ∀ byte ∈ rest, byte.toNat < 128 :=
      fun byte member => (parse_digits_digit read byte member).ascii
    split at signed
    · rename_i same
      subst same
      exact List.forall_mem_cons.mpr ⟨by decide, tail signed⟩
    · split at signed
      · rename_i same
        subst same
        exact List.forall_mem_cons.mpr ⟨by decide, tail signed⟩
      · exact fun byte member => (parse_digits_digit signed byte member).ascii

/-- What is printed is digits, after a sign. -/
theorem display_bytes (number : Int32) : ∀ byte ∈ display number, byte = minus ∨ Digit byte := by
  unfold display
  split
  · intro byte member
    rcases List.mem_cons.mp member with sign | digit
    · exact .inl sign
    · exact .inr (digits_digit _ byte digit)
  · intro byte member
    exact .inr (digits_digit _ byte member)

end RustAsyncAwait.Library
