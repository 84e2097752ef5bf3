import RustAsyncAwait.CoroutineManager
import RustAsyncAwait.Library.Loops
import Mathlib.Logic.Function.Basic

/-! `CoroutineManager` of `chap5/coroutine_manager.rs` on a disk. Its two paths
may name one file, which then grows while it is read through a buffer. -/

namespace RustAsyncAwait.ManagerFiles
open Library
open ReadLine (newline ReadError)
open CoroutineManager (CoroutineState WriteCoroutine.resume trim)

/-- Of `BufReader::new`. -/
def capacity : Nat := 8 * 1024

/-- What is left in the buffer, and how far the file has been read. -/
structure BufReader where
  buffered : List UInt8 := []
  offset : Nat := 0
  deriving Repr, DecidableEq

/-- An empty buffer is filled from the file as it is. -/
def BufReader.fill_buf (reader : BufReader) (file : List UInt8) : BufReader :=
  if reader.buffered = [] then
    let buffered := (file.drop reader.offset).take capacity
    { buffered, offset := reader.offset + buffered.length }
  else reader

def BufReader.unread (reader : BufReader) (file : List UInt8) : List UInt8 := reader.buffered ++ file.drop reader.offset

theorem BufReader.fill_buf_unread (reader : BufReader) (file : List UInt8) :
    (reader.fill_buf file).unread file = reader.unread file := by
  unfold fill_buf unread
  split
  · rename_i empty
    rw [empty, List.nil_append, ← List.drop_drop]
    exact List.prefix_iff_eq_append.mp (List.take_prefix _ _)
  · rfl

/-- Handing out the whole buffer leaves less to read. -/
theorem BufReader.fill_buf_shorter {reader : BufReader} {file : List UInt8}
    (filled : (reader.fill_buf file).buffered ≠ []) :
    (({ reader.fill_buf file with buffered := [] } : BufReader).unread file).length < (reader.unread file).length := by
  have positive := List.length_pos_iff.mpr filled
  rw [← reader.fill_buf_unread file, unread, unread, List.length_append, List.length_append]
  simp only [List.length_nil]
  omega

/-- `BufRead::read_until`. -/
def read_until (reader : BufReader) (file : List UInt8) : List UInt8 × BufReader :=
  match (reader.fill_buf file).buffered.dropWhile (· != newline) with
  | _ :: rest =>
    ((reader.fill_buf file).buffered.takeWhile (· != newline) ++ [newline], { reader.fill_buf file with buffered := rest })
  | [] =>
    if _ : (reader.fill_buf file).buffered ≠ [] then
      let (bytes, after) := read_until { reader.fill_buf file with buffered := [] } file
      ((reader.fill_buf file).buffered ++ bytes, after)
    else
      ([], reader.fill_buf file)
termination_by (reader.unread file).length
decreasing_by exact BufReader.fill_buf_shorter ‹_›

/-- `Lines::next`. A line is given by the bytes of its `String`. -/
def BufReader.next (reader : BufReader) (file : List UInt8) : Option (Except ReadError (List UInt8)) × BufReader :=
  let (bytes, after) := read_until reader file
  match from_utf8 bytes with
  | some line =>
    if (as_bytes line).length = 0 then (none, after)
    else (some (.ok (trim (as_bytes line))), after)
  | none => (some (.error .other), after)

/-- `ReadCoroutine::resume`. -/
def BufReader.resume (reader : BufReader) (file : List UInt8) : CoroutineState Int32 × BufReader :=
  match reader.next file with
  | (some (.ok line), after) =>
    match parse line with
    | some number => (.yielded number, after)
    | none => (.complete, after)
  | (some (.error _), after) | (none, after) => (.complete, after)

/-- A `CoroutineManager`. The files are the inodes that its two paths lead to. -/
structure Manager where
  disk : Nat → List UInt8
  reader : BufReader := {}
  read_file : Nat
  write_file : Nat

/-- A round of the loop of `run`, `none` where it breaks. -/
def Manager.run_round (manager : Manager) : Option Manager :=
  match manager.reader.resume (manager.disk manager.read_file) with
  | (.yielded number, reader) =>
    let file := WriteCoroutine.resume (manager.disk manager.write_file) number
    some { manager with reader, disk := Function.update manager.disk manager.write_file file }
  | (.complete, _) => none

end RustAsyncAwait.ManagerFiles
