import RustAsyncAwait.Library.Machine

/-! The connection task of `kohno_book_chap5/tokio_echo_server.rs` with tokio's
`BufWriter` around its socket. A raw write that would block only keeps the task
waiting, so what is seen here are the writes that take some bytes. -/

namespace RustAsyncAwait.TokioEchoServer
open Library

/-- The capacity of `BufWriter::new`. -/
def capacity : Nat := 8192

/-- Where the task stands: in `read_line`, or in `write_all` with the rest of a
line, either emptying the buffer for it or writing it past the buffer. -/
inductive Place
  | read_line
  | flush_buf (rest : List UInt8)
  | write (rest : List UInt8)
  | returned
  | panicked
  deriving Repr, DecidableEq

/-- `lines` are those it has read, and `socket` is what has been written. -/
structure State where
  place : Place := .read_line
  buf : List UInt8 := []
  socket : List UInt8 := []
  lines : List (List UInt8) := []
  deriving Repr, DecidableEq

/-- What `read_line` returns, and the raw writes with the number of bytes they take. -/
inductive Event
  | line (line : List UInt8)
  | closed
  | error
  | flush (count : Nat)
  | write (count : Nat)
  | fail
  deriving Repr, DecidableEq

/-- The end of `poll_write`, with the buffer emptied if it had to be: what is as
large as the buffer goes past it, and anything else ends in it, and `write_all` with that. -/
def State.put (state : State) (rest : List UInt8) : State :=
  if capacity ≤ rest.length then { state with place := .write rest }
  else { state with place := .read_line, buf := state.buf ++ rest }

/-- `write_all`, which calls `poll_write` on the rest of the line while there is any. -/
def State.write_all (state : State) (rest : List UInt8) : State :=
  if rest = [] then { state with place := .read_line }
  else if capacity < state.buf.length + rest.length ∧ state.buf ≠ [] then { state with place := .flush_buf rest }
  else state.put rest

def State.step (state : State) : Event → Option State
  | .line line =>
    if state.place = .read_line ∧ line ≠ [] then
      some ({ state with lines := state.lines ++ [line] }.write_all line)
    else none
  | .closed | .error => if state.place = .read_line then some { state with place := .returned } else none
  | .flush count =>
    match state.place with
    | .flush_buf rest =>
      if 0 < count ∧ count ≤ state.buf.length then
        let socket := state.socket ++ state.buf.take count
        let buf := state.buf.drop count
        some (if buf = [] then { state with socket, buf }.put rest else { state with socket, buf })
      else none
    | _ => none
  | .write count =>
    match state.place with
    | .write rest =>
      if 0 < count ∧ count ≤ rest.length then
        some ({ state with socket := state.socket ++ rest.take count }.write_all (rest.drop count))
      else none
    | _ => none
  | .fail =>
    match state.place with
    | .flush_buf _ | .write _ => some { state with place := .panicked }
    | _ => none

def connection : Machine State Event where
  init := {}
  step := State.step

end RustAsyncAwait.TokioEchoServer
