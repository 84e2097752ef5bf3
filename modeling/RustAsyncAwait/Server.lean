import RustAsyncAwait.AsyncRuntime
import RustAsyncAwait.DataLayer
import RustAsyncAwait.Library.Nonblocking

/-! The server of chap10 (server/src/main.rs): how a connection is read, and how
the acceptor hands connections to three workers that park while they are idle. -/

namespace RustAsyncAwait.Server
open Library DataLayer

/-- The read loop of `handle_client`, from the bytes it has buffered and the
results of its next reads; `none` while it has not left the loop. -/
def read_loop (buffer : List UInt8) : List ReadResult → Option (List UInt8)
  | [] => none
  | .ok bytes :: results =>
    if bytes.length = 0 then some buffer else read_loop (buffer ++ bytes) results
  | .wouldBlock :: results =>
    -- with an empty buffer the task sleeps for a while and reads again
    if buffer.length > 0 then some buffer else read_loop buffer results
  -- the error is printed, and the loop goes on
  | .failed :: results => read_loop buffer results

/-- What `handle_client` decodes the connection to. -/
def handle_client (order : ByteOrder) (results : List ReadResult) : Option (Except ErrorKind Data) :=
  (read_loop [] results).map fun buffer =>
    ((Data.deserialize order).perform { bytes := buffer, position := 0 }).1

/-- Where a worker stands in the loop of `spawn_worker!`. -/
inductive Place
  | receive
  | store
  | park
  | parked
  | poll
  | panicked
  deriving Repr, DecidableEq

/-- A worker's own data with its entry of `FLAGS`, the streams in its channel
and the token that `unpark` leaves for its thread. -/
structure Worker where
  channel : List Nat := []
  executor : AsyncRuntime.State := {}
  flag : Bool := false
  token : Bool := false
  place : Place := .receive
  deriving DecidableEq

inductive WorkerEvent
  | receive (stream : Nat)
  | panic
  | empty
  | store
  | park
  | unparked
  | spurious
  | poll (event : AsyncRuntime.Event)
  deriving DecidableEq

/-- Where a step of the executor's `poll` leaves the worker's loop; `none` for
what is no step of `poll`. -/
def polled : AsyncRuntime.Event → Option Place
  | .poll _ => some .poll
  | .pending _ | .ready _ | .empty => some .receive
  | .spawn | .wake _ => none

def Worker.step (worker : Worker) : WorkerEvent → Option Worker
  | .receive stream =>
    match worker.place, worker.channel with
    | .receive, first :: rest =>
      if first = stream then
        (AsyncRuntime.step worker.executor .spawn).map fun executor =>
          { worker with channel := rest, executor, place := .poll }
      else none
    | _, _ => none
  -- `stream.peer_addr().unwrap()`; the receiver is dropped with the thread
  | .panic =>
    if worker.place = .receive ∧ worker.channel ≠ [] then some { worker with channel := [], place := .panicked } else none
  | .empty =>
    if worker.place = .receive ∧ worker.channel = [] then
      some { worker with place := if worker.executor.polling.length = 0 then .store else .poll }
    else none
  | .store => if worker.place = .store then some { worker with flag := true, place := .park } else none
  | .park =>
    if worker.place = .park then
      if worker.token then some { worker with token := false, place := .poll } else some { worker with place := .parked }
    else none
  | .unparked =>
    if worker.place = .parked ∧ worker.token then some { worker with token := false, place := .poll } else none
  -- `park` may return without a token
  | .spurious => if worker.place = .parked then some { worker with place := .poll } else none
  | .poll event =>
    if worker.place = .poll then
      (polled event).bind fun place =>
        (AsyncRuntime.step worker.executor event).map fun executor => { worker with executor, place }
    else none

/-- The acceptor's next step, for the connection it has last sent. -/
inductive Acceptor
  | accept
  | load
  | store
  | unpark
  deriving Repr, DecidableEq

/-- `index` is the worker whose turn it is. -/
structure State where
  workers : Fin 3 → Worker := fun _ => {}
  acceptor : Acceptor := .accept
  index : Fin 3 := 0
  accepted : Nat := 0

/-- `accept` sends the next stream, and `refuse` is an `Err` of `incoming`. -/
inductive Event
  | accept
  | refuse
  | load
  | store
  | unpark
  | worker (id : Fin 3) (event : WorkerEvent)
  deriving DecidableEq

/-- A send to a thread that has ended fails, and the error is ignored. -/
def Worker.send (worker : Worker) (stream : Nat) : Worker :=
  if worker.place = .panicked then worker else { worker with channel := worker.channel ++ [stream] }

def State.update (state : State) (id : Fin 3) (worker : Worker) : State :=
  { state with workers := Function.update state.workers id worker }

/-- The end of the acceptor's work on one connection. -/
def State.next (state : State) : State := { state with acceptor := .accept, index := state.index + 1 }

def step (state : State) : Event → Option State
  | .accept =>
    if state.acceptor = .accept then
      some { state.update state.index ((state.workers state.index).send state.accepted) with
        acceptor := .load, accepted := state.accepted + 1 }
    else none
  | .refuse => if state.acceptor = .accept then some state else none
  | .load =>
    if state.acceptor = .load then
      if (state.workers state.index).flag then some { state with acceptor := .store } else some state.next
    else none
  | .store =>
    if state.acceptor = .store then
      some { state.update state.index { state.workers state.index with flag := false } with acceptor := .unpark }
    else none
  | .unpark =>
    if state.acceptor = .unpark then
      some (state.update state.index { state.workers state.index with token := true }).next
    else none
  | .worker id event => ((state.workers id).step event).map (state.update id)

def server : Machine State Event where
  init := {}
  step := step

end RustAsyncAwait.Server
