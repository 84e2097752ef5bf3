import RustAsyncAwait.Library.Nonblocking

/-! `std::io::BufWriter` around a stream whose raw writes have given outcomes.
After the last of them the stream takes nothing more. -/

namespace RustAsyncAwait.Library

inductive StreamError
  | wouldBlock
  | interrupted
  | writeZero
  | other
  deriving Repr, DecidableEq

/-- `inner` is what the stream has taken. -/
structure BufWriter where
  inner : List UInt8 := []
  buf : List UInt8 := []
  deriving Repr, DecidableEq

namespace BufWriter

/-- The loop that empties the buffer, with the outcomes it leaves. What the
stream has taken is off the buffer also where it fails. -/
def flush_buf (writer : BufWriter) : List WriteResult → BufWriter × Except StreamError Unit × List WriteResult
  | [] => if writer.buf = [] then (writer, .ok (), []) else (writer, .error .wouldBlock, [])
  | outcome :: outcomes =>
    if writer.buf = [] then
      (writer, .ok (), outcome :: outcomes)
    else
      match outcome with
      | .ok count =>
        if count = 0 then (writer, .error .writeZero, outcomes)
        else flush_buf ⟨writer.inner ++ writer.buf.take count, writer.buf.drop count⟩ outcomes
      | .wouldBlock => (writer, .error .wouldBlock, outcomes)
      | .interrupted => flush_buf writer outcomes
      | .failed => (writer, .error .other, outcomes)

/-- One raw write, and how many bytes it has taken. -/
def raw_write (writer : BufWriter) (bytes : List UInt8) :
    List WriteResult → BufWriter × Except StreamError Nat × List WriteResult
  | [] => (writer, .error .wouldBlock, [])
  | .ok count :: outcomes =>
    ({ writer with inner := writer.inner ++ bytes.take count }, .ok (min count bytes.length), outcomes)
  | .wouldBlock :: outcomes => (writer, .error .wouldBlock, outcomes)
  | .interrupted :: outcomes => (writer, .error .interrupted, outcomes)
  | .failed :: outcomes => (writer, .error .other, outcomes)

/-- `Write::write`. A slice that the buffer has no room for empties it first,
and one as large as the buffer goes to the stream in one raw write. -/
def write (capacity : Nat) (writer : BufWriter) (bytes : List UInt8) (outcomes : List WriteResult) :
    BufWriter × Except StreamError Nat × List WriteResult :=
  if bytes.length < capacity - writer.buf.length then
    ({ writer with buf := writer.buf ++ bytes }, .ok bytes.length, outcomes)
  else
    let (writer, flushed, outcomes) :=
      if capacity - writer.buf.length < bytes.length then writer.flush_buf outcomes else (writer, .ok (), outcomes)
    match flushed with
    | .error err => (writer, .error err, outcomes)
    | .ok () =>
      if capacity ≤ bytes.length then writer.raw_write bytes outcomes
      else ({ writer with buf := writer.buf ++ bytes }, .ok bytes.length, outcomes)

/-- `Write::flush`; the stream's own `flush` does nothing. -/
def flush (writer : BufWriter) (outcomes : List WriteResult) : BufWriter × Except StreamError Unit × List WriteResult :=
  writer.flush_buf outcomes

/-- What the destructor does; it ignores the result. -/
def drop (writer : BufWriter) (outcomes : List WriteResult) : BufWriter := (writer.flush_buf outcomes).1

end BufWriter

/-- How many bytes a loop of raw writes can put on the stream before one of them fails. -/
def room : List WriteResult → Nat
  | .ok count :: outcomes => if count = 0 then 0 else count + room outcomes
  | .interrupted :: outcomes => room outcomes
  | [] | .wouldBlock :: _ | .failed :: _ => 0

/-- How many bytes the first raw write can take. -/
def first_room : List WriteResult → Nat
  | .ok count :: _ => count
  | [] | .wouldBlock :: _ | .interrupted :: _ | .failed :: _ => 0

namespace BufWriter

theorem flush_buf_empty {writer : BufWriter} {outcomes : List WriteResult} (empty : writer.buf = []) :
    writer.flush_buf outcomes = (writer, .ok (), outcomes) := by
  cases outcomes <;> simp [flush_buf, empty]

/-- Emptying the buffer succeeds exactly when the stream has room for all of it. -/
theorem flush_buf_ok {writer : BufWriter} {outcomes : List WriteResult} :
    (writer.flush_buf outcomes).2.1 = .ok () ↔ writer.buf.length ≤ room outcomes := by
  induction outcomes generalizing writer with
  | nil =>
    by_cases empty : writer.buf = [] <;> simp [flush_buf, room, empty]
  | cons outcome outcomes ih =>
    by_cases empty : writer.buf = []
    · simp [flush_buf_empty empty, empty]
    · cases outcome with
      | ok count =>
        by_cases none : count = 0
        · simp [flush_buf, room, empty, none]
        · simp only [flush_buf, room, empty, none, if_false, ih, List.length_drop]
          omega
      | interrupted => simp only [flush_buf, room, empty, if_false, ih]
      | wouldBlock | failed => simp [flush_buf, room, empty]

/-- Nothing is lost or reordered between the buffer and the stream. -/
theorem flush_buf_bytes (writer : BufWriter) (outcomes : List WriteResult) :
    (writer.flush_buf outcomes).1.inner ++ (writer.flush_buf outcomes).1.buf = writer.inner ++ writer.buf := by
  induction outcomes generalizing writer with
  | nil => by_cases empty : writer.buf = [] <;> simp [flush_buf, empty]
  | cons outcome outcomes ih =>
    by_cases empty : writer.buf = []
    · rw [flush_buf_empty empty]
    · cases outcome with
      | ok count =>
        by_cases none : count = 0
        · simp [flush_buf, empty, none]
        · simp only [flush_buf, empty, none, if_false, ih, List.append_assoc, List.take_append_drop]
      | interrupted => simp only [flush_buf, empty, if_false, ih]
      | wouldBlock | failed => simp [flush_buf, empty]

theorem flush_buf_done {writer : BufWriter} {outcomes : List WriteResult}
    (done : (writer.flush_buf outcomes).2.1 = .ok ()) : (writer.flush_buf outcomes).1.buf = [] := by
  induction outcomes generalizing writer with
  | nil =>
    by_cases empty : writer.buf = []
    · simp [flush_buf, empty]
    · simp [flush_buf, empty] at done
  | cons outcome outcomes ih =>
    by_cases empty : writer.buf = []
    · rw [flush_buf_empty empty]
      exact empty
    · cases outcome with
      | ok count =>
        by_cases none : count = 0
        · simp [flush_buf, empty, none] at done
        · simp only [flush_buf, empty, none, if_false] at done ⊢
          exact ih done
      | interrupted =>
        simp only [flush_buf, empty, if_false] at done ⊢
        exact ih done
      | wouldBlock | failed => simp [flush_buf, empty] at done

/-- With an empty buffer, a slice that fits into it reaches only the buffer. -/
theorem write_small {capacity : Nat} {writer : BufWriter} {bytes : List UInt8} (outcomes : List WriteResult)
    (empty : writer.buf = []) (small : bytes.length < capacity) :
    writer.write capacity bytes outcomes = ({ writer with buf := bytes }, .ok bytes.length, outcomes) := by
  simp [write, empty, small]

/-- A larger one goes past the buffer. -/
theorem write_large {capacity : Nat} {writer : BufWriter} {bytes : List UInt8} (outcomes : List WriteResult)
    (empty : writer.buf = []) (large : capacity ≤ bytes.length) :
    writer.write capacity bytes outcomes = writer.raw_write bytes outcomes := by
  have not_small : ¬ bytes.length < capacity := Nat.not_lt.mpr large
  simp only [write, empty, List.length_nil, Nat.sub_zero, not_small, if_false, large, if_true, flush_buf_empty empty, ite_self]

end BufWriter
end RustAsyncAwait.Library
