import RustAsyncAwait.Library.BufWriter
import RustAsyncAwait.Library.Machine
import Mathlib.Logic.Function.Basic

/-! What the connection tasks of `kohno_book_chap5/io_multiplexing.rs` do with
the lines they have read. The writer's socket shares its open file description
with the one that `AsyncReader::new` has made non-blocking. -/

namespace RustAsyncAwait.EchoWriter
open Library

/-- The capacity of `BufWriter::new`. -/
def capacity : Nat := 8192

/-- The two writes for a line, up to the first that fails, with the outcomes they leave. -/
def handle_line (writer : BufWriter) (buf : List UInt8) (outcomes : List WriteResult) :
    BufWriter × Except StreamError Unit × List WriteResult :=
  match writer.write capacity buf outcomes with
  | (writer, .error err, outcomes) => (writer, .error err, outcomes)
  | (writer, .ok _, outcomes) => writer.flush outcomes

/-- `lines` are those it has read. One that has read none may not have been accepted yet. -/
structure Connection where
  lines : List (List UInt8) := []
  writer : BufWriter := {}
  closed : Bool := false
  deriving Repr, DecidableEq

/-- The thread of `Executor::run`, which polls all of the tasks. -/
structure State where
  connections : Nat → Connection := fun _ => {}
  panicked : Bool := false

/-- A task has read a line, or the end of its stream, and its socket's raw writes
come out like this from now on. -/
inductive Event
  | line (id : Nat) (buf : List UInt8) (outcomes : List WriteResult)
  | close (id : Nat) (outcomes : List WriteResult)
  deriving Repr, DecidableEq

/-- The writer of a task that ends or unwinds is dropped. -/
def State.step (state : State) : Event → Option State
  | .line id buf outcomes =>
    let connection := state.connections id
    if state.panicked = false ∧ connection.closed = false ∧ buf ≠ [] then
      let lines := connection.lines ++ [buf]
      match handle_line connection.writer buf outcomes with
      | (writer, .ok (), _) =>
        some { state with connections := Function.update state.connections id { connection with lines, writer } }
      | (writer, .error _, outcomes) =>
        some {
          connections := Function.update state.connections id ⟨lines, writer.drop outcomes, true⟩
          panicked := true }
    else none
  | .close id outcomes =>
    let connection := state.connections id
    if state.panicked = false ∧ connection.closed = false then
      let writer := connection.writer.drop outcomes
      some { state with connections := Function.update state.connections id { connection with writer, closed := true } }
    else none

def server : Machine State Event where
  init := {}
  step := State.step

end RustAsyncAwait.EchoWriter
