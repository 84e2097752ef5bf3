import RustAsyncAwait.Library.Bytes
import RustAsyncAwait.Library.Format

/-! The message of chap10 and its wire format (data_layer/src/data.rs). The
machine's byte order is a parameter: the code writes `to_ne_bytes`. -/

namespace RustAsyncAwait.DataLayer
open Library

structure Data where
  field1 : UInt32
  field2 : UInt16
  field3 : String
  deriving Repr, DecidableEq

/-- Writing to a `Vec` appends all of the bytes and never fails. The length is
cast to `u32`. -/
def Data.serialize (order : ByteOrder) (data : Data) : List UInt8 :=
  let bytes := ne_bytes order 4 data.field1.toNat
  let bytes := bytes ++ ne_bytes order 2 data.field2.toNat
  let field3_len := UInt32.ofNat (as_bytes data.field3).length
  let bytes := bytes ++ ne_bytes order 4 field3_len.toNat
  bytes ++ as_bytes data.field3

inductive ErrorKind
  | unexpectedEof
  | invalidData
  deriving Repr, DecidableEq

structure Cursor where
  bytes : List UInt8
  position : Nat
  deriving Repr, DecidableEq

def Cursor.remaining (cursor : Cursor) : List UInt8 := cursor.bytes.drop cursor.position

def Cursor.advance (cursor : Cursor) (count : Nat) : Cursor := { cursor with position := cursor.position + count }

/-- A short read takes what there is and fails. -/
def read_exact (count : Nat) : Fallible ErrorKind Cursor (List UInt8) := do
  let cursor ← get
  if count ≤ cursor.remaining.length then
    set (cursor.advance count)
    return cursor.remaining.take count
  else
    set { cursor with position := cursor.bytes.length }
    throw .unexpectedEof

/-- `String::from_utf8` with its error mapped to `InvalidData`. -/
def string_from_utf8 (bytes : List UInt8) : Fallible ErrorKind Cursor String :=
  match from_utf8 bytes with
  | some text => pure text
  | none => throw .invalidData

def Data.deserialize (order : ByteOrder) : Fallible ErrorKind Cursor Data := do
  let field1_bytes ← read_exact 4
  let field2_bytes ← read_exact 2
  let field1 := UInt32.ofNat (of_ne_bytes order field1_bytes)
  let field2 := UInt16.ofNat (of_ne_bytes order field2_bytes)
  let len_bytes ← read_exact 4
  let len := (UInt32.ofNat (of_ne_bytes order len_bytes)).toNat
  let field3_bytes ← read_exact len
  let field3 ← string_from_utf8 field3_bytes
  return { field1, field2, field3 }

/-- One `Cursor`, deserialized again and again. -/
def Data.deserialize_times (order : ByteOrder) : Nat → Fallible ErrorKind Cursor (List Data)
  | 0 => return []
  | count + 1 => do
    let data ← Data.deserialize order
    let rest ← Data.deserialize_times order count
    return data :: rest

end RustAsyncAwait.DataLayer
