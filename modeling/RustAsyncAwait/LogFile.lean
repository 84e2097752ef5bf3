import RustAsyncAwait.Library.Machine
import RustAsyncAwait.Library.Nonblocking

/-! The handles of `get_handle` in `chap2/logging.rs` on one path. One from the
append branch writes at the end of the file, one from `File::create` at an
offset of its own. -/

namespace RustAsyncAwait.LogFile
open Library

inductive Handle
  | append
  | create (position : Nat)
  deriving Repr, DecidableEq

/-- `file` is `none` where the path does not exist. `creating` are the calls of
`get_handle` whose `open` has failed and whose `create` is still to come. -/
structure State where
  file : Option (List UInt8)
  handles : List Handle := []
  creating : Nat := 0
  deriving Repr, DecidableEq

def State.content (state : State) : List UInt8 := state.file.getD []

/-- `open` fails where the path does not exist, and may fail for other reasons. -/
inductive Event
  | open_append
  | open_failed
  | create
  | write_all (handle : Nat) (bytes : List UInt8) (outcomes : List WriteResult)
  deriving Repr, DecidableEq

/-- Between the end of the file and an offset beyond it there are zeros then. -/
def write_at (content : List UInt8) (position : Nat) (bytes : List UInt8) : List UInt8 :=
  if bytes = [] then
    content
  else
    content.take position ++ List.replicate (position - content.length) 0 ++ bytes ++ content.drop (position + bytes.length)

/-- `File::create` truncates a file that exists. -/
def State.create (state : State) : State :=
  { file := some [], handles := state.handles ++ [.create 0], creating := state.creating - 1 }

/-- What the writes of one `write_all` make of the file and the handle. -/
def State.write (state : State) (index : Nat) (handle : Handle) (written : List UInt8) : State :=
  match handle with
  | .append => { state with file := some (state.content ++ written) }
  | .create position =>
    { state with
      file := some (write_at state.content position written)
      handles := state.handles.set index (.create (position + written.length)) }

def State.step (state : State) : Event → Option State
  | .open_append => state.file.map fun _ => { state with handles := state.handles ++ [.append] }
  | .open_failed => some { state with creating := state.creating + 1 }
  | .create => if 0 < state.creating then some state.create else none
  | .write_all index bytes outcomes =>
    state.handles[index]?.map fun handle => state.write index handle (write_all bytes outcomes).1

def log_file (file : Option (List UInt8)) : Machine State Event where
  init := { file }
  step := State.step

end RustAsyncAwait.LogFile
