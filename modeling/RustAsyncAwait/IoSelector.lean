import RustAsyncAwait.IoMultiplexing

/-! The `IOSelector` of `kohno_book_chap5/io_multiplexing.rs` under any use of
its futures: any number of listeners and readers, which their owners poll, poll
again and drop in any order. The thread that selects is that of the server. -/

namespace RustAsyncAwait.IoSelector
open Library
open IoMultiplexing (RawFd File IOOps event)

/-- The `drop` of an `AsyncListener` or `AsyncReader` calls `unregister`; its descriptor is closed after that. -/
inductive Life
  | alive
  | dropped
  | closed
  deriving Repr, DecidableEq

/-- An `AsyncListener`, or an `AsyncReader` with the `BufWriter` that was
accepted with it. The file of a source is the socket of its index. -/
structure Source where
  fd : RawFd
  writer : Option RawFd
  listens : Bool
  life : Life
  deriving Repr, DecidableEq

/-- Each poll that returned `Pending` has its own waker; `polls` has the source
of each of them. `registering` is the source whose `register` or `unregister`
holds the lock of the queue. The channel of `io` has the wakers that were woken,
and nobody takes them from it. -/
structure State where
  io : IoMultiplexing.State
  sources : List Source := []
  polls : List Nat := []
  registering : Option Nat := none

def initial : State where
  io :=
    { fds := fun fd => if fd < event then some .other else if fd = event then some .eventfd else none
      tasks := []
      channel := [] }

/-- `listen` and `accept` open descriptors, `pending` is a poll that finds its
socket `WouldBlock`, `select` a step of the thread that selects. A poll that
returns `Ready` leaves the selector alone. -/
inductive Event
  | listen (fd : RawFd)
  | accept (listener : Nat) (writer reader : RawFd)
  | pending (source : Nat)
  | unregister (source : Nat)
  | write_eventfd
  | close (source : Nat)
  | drop_writer (source : Nat)
  | select (event : IoMultiplexing.Event)
  deriving Repr, DecidableEq

namespace State

def fd (state : State) (source : Nat) : Option RawFd := state.sources[source]?.map Source.fd

def writer (state : State) (source : Nat) : Option RawFd := state.sources[source]?.bind Source.writer

def life (state : State) (source : Nat) : Option Life := state.sources[source]?.map Source.life

def setLife (state : State) (source : Nat) (life : Life) : State :=
  { state with sources := state.sources.modify source fun source => { source with life } }

def dropWriter (state : State) (source : Nat) : State :=
  { state with sources := state.sources.modify source fun source => { source with writer := none } }

end State

/-- The events of the thread that selects. -/
def selects : IoMultiplexing.Event → Bool
  | .epoll_wait _ | .wake _ | .lock | .request _ | .read_eventfd | .again => true
  | _ => false

def step (state : State) : Event → Option State
  | .listen fd =>
    if state.io.fds fd = none then
      let file := File.socket state.sources.length
      some { state with
        io.fds := Function.update state.io.fds fd (some file)
        io.refs := Function.update state.io.refs file 1
        sources := state.sources ++ [⟨fd, none, true, .alive⟩] }
    else none
  -- `accept` and `try_clone`
  | .accept listener writer reader =>
    if (state.sources[listener]?.any fun found => found.listens && found.life == .alive) = true ∧
        state.io.fds writer = none ∧ state.io.fds reader = none ∧ writer ≠ reader then
      let file := File.socket state.sources.length
      some { state with
        io.fds := Function.update (Function.update state.io.fds writer (some file)) reader (some file)
        io.refs := Function.update state.io.refs file 2
        sources := state.sources ++ [⟨reader, some writer, false, .alive⟩] }
    else none
  | .pending source =>
    match state.fd source, state.life source with
    | some fd, some .alive =>
      (state.io.perform (.push (.ADD fd state.polls.length))).map fun io =>
        { state with io, polls := state.polls ++ [source], registering := some source }
    | _, _ => none
  | .unregister source =>
    match state.fd source, state.life source with
    | some fd, some .alive =>
      (state.io.perform (.push (.REMOVE fd))).map fun io =>
        { state with io, registering := some source }.setLife source .dropped
    | _, _ => none
  | .write_eventfd =>
    if state.registering ≠ none then
      (state.io.perform .write_eventfd).map fun io => { state with io, registering := none }
    else none
  | .close source =>
    match state.fd source, state.life source with
    | some fd, some .dropped =>
      if state.registering ≠ some source then
        some ({ state with io := state.io.close fd }.setLife source .closed)
      else none
    | _, _ => none
  | .drop_writer source =>
    (state.writer source).map fun fd => { state with io := state.io.close fd }.dropWriter source
  | .select event =>
    if selects event then (IoMultiplexing.step state.io event).map fun io => { state with io } else none

def selector : Machine State Event where
  init := initial
  step := step

end RustAsyncAwait.IoSelector
