import RustAsyncAwait.Library.Decimal
import RustAsyncAwait.ReadLine

/-! The coroutines of `chap5/coroutine_manager.rs` that read and write files of
numbers. A file is its bytes, and all of the one that is read is in the reader's buffer. -/

namespace RustAsyncAwait.CoroutineManager
open Library
open ReadLine (newline BufReader ReadError)

inductive CoroutineState (υ : Type)
  | yielded (value : υ)
  | complete
  deriving Repr, DecidableEq

def carriage_return : UInt8 := 13

/-- `writeln!("{}")` on a file opened for appending. -/
def WriteCoroutine.resume (file : List UInt8) (arg : Int32) : List UInt8 := file ++ display arg ++ [newline]

/-- What `Lines` takes off the end of a line. -/
def trim (line : List UInt8) : List UInt8 :=
  if line.getLast? = some newline then
    let line := line.dropLast
    if line.getLast? = some carriage_return then line.dropLast else line
  else line

/-- The lines that are left of the file. -/
structure ReadCoroutine where
  lines : List UInt8
  deriving Repr, DecidableEq

/-- `Lines::next`. A line is given by the bytes of its `String`. -/
def ReadCoroutine.next (coroutine : ReadCoroutine) : Option (Except ReadError (List UInt8)) × ReadCoroutine :=
  match BufReader.read_line ⟨coroutine.lines, []⟩ with
  | (.ok line, reader) =>
    if (as_bytes line).length = 0 then (none, ⟨reader.buffered⟩)
    else (some (.ok (trim (as_bytes line))), ⟨reader.buffered⟩)
  | (.error err, reader) => (some (.error err), ⟨reader.buffered⟩)

def ReadCoroutine.resume (coroutine : ReadCoroutine) : CoroutineState Int32 × ReadCoroutine :=
  match coroutine.next with
  | (some (.ok line), coroutine) =>
    match parse line with
    | some number => (.yielded number, coroutine)
    | none => (.complete, coroutine)
  | (some (.error _), coroutine) | (none, coroutine) => (.complete, coroutine)

/-- A line is taken off the file it is read from. -/
theorem read_line_takes {file : List UInt8} {line : String} {reader : BufReader}
    (read : BufReader.read_line ⟨file, []⟩ = (.ok line, reader)) : as_bytes line ++ reader.buffered = file := by
  obtain ⟨chunks, taken, _, ends⟩ := ReadLine.read_until_reads file []
  unfold BufReader.read_line at read
  match ended : ReadLine.read_until file [] with
  | (bytes, .ok (), after) =>
    rw [ended] at taken ends
    obtain ⟨none, _⟩ := List.append_eq_nil_iff.mp ends.1.symm
    simp only [ended] at read
    cases decoded : from_utf8 bytes with
    | none => simp [decoded] at read
    | some text =>
      simp only [decoded] at read
      cases read
      rw [← from_utf8_eq_some.mp decoded]
      simpa [none] using taken
  | (bytes, .error err, after) => simp [ended] at read

theorem ReadCoroutine.resume_shorter {coroutine next : ReadCoroutine} {number : Int32}
    (resumed : coroutine.resume = (.yielded number, next)) : next.lines.length < coroutine.lines.length := by
  unfold ReadCoroutine.resume ReadCoroutine.next at resumed
  match read : BufReader.read_line ⟨coroutine.lines, []⟩ with
  | (.ok line, reader) =>
    have taken := congrArg List.length (read_line_takes read)
    by_cases empty : (as_bytes line).length = 0
    · simp [read, empty] at resumed
    · simp only [read, empty, if_false] at resumed
      split at resumed
      · cases resumed
        rw [List.length_append] at taken
        simp only
        omega
      · cases resumed
  | (.error err, reader) => simp [read] at resumed

/-- The loop of `CoroutineManager::run`: what it makes of the file it writes to. -/
def run (reader : ReadCoroutine) (output : List UInt8) : List UInt8 :=
  match _resumed : reader.resume with
  | (.yielded number, next) => run next (WriteCoroutine.resume output number)
  | (.complete, _) => output
termination_by reader.lines.length
decreasing_by exact ReadCoroutine.resume_shorter _resumed

/-- What a `ReadCoroutine` yields until it completes. -/
def ReadCoroutine.yields (reader : ReadCoroutine) : List Int32 :=
  match _resumed : reader.resume with
  | (.yielded number, next) => number :: next.yields
  | (.complete, _) => []
termination_by reader.lines.length
decreasing_by exact ReadCoroutine.resume_shorter _resumed

end RustAsyncAwait.CoroutineManager
