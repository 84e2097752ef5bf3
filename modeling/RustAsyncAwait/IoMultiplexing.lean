import RustAsyncAwait.Library.HashMap
import RustAsyncAwait.Library.Machine
import Mathlib.Algebra.GroupWithZero.Nat
import Mathlib.Logic.Function.Basic

/-! The server of `kohno_book_chap5/io_multiplexing.rs`: the executor's thread
with the server task and a task for each connection, the thread that selects,
and the kernel's descriptors, epoll instance and eventfd. Sockets may become
ready at any moment, and the executor's channel is never full. -/

namespace RustAsyncAwait.IoMultiplexing
open Library

abbrev RawFd := Nat

/-- What a descriptor refers to. Task 0 is the server, and its socket the
listener; the socket of another task is its connection. -/
inductive File
  | other
  | eventfd
  | socket (task : Nat)
  deriving Repr, DecidableEq

/-- The `event` of the `IOSelector`, and the descriptor of the listener. -/
def event : RawFd := 4

def listener : RawFd := 5

/-- A task is its own waker. The flags of an `ADD` are always `EPOLLIN`. -/
inductive IOOps
  | ADD (fd : RawFd) (task : Nat)
  | REMOVE (fd : RawFd)
  deriving Repr, DecidableEq

/-- What the last poll of a task's future returned, if it has been polled. -/
inductive Status
  | spawned
  | polling
  | pending
  | ready
  deriving Repr, DecidableEq

/-- `fd` is the descriptor that the task's future waits for, and `writer` that of its `BufWriter`. -/
structure Task where
  fd : RawFd
  writer : Option RawFd
  status : Status
  deriving Repr, DecidableEq

/-- What the executor's thread does outside of its futures: `register` and
`unregister` push under the lock of the queue, which they release after the write. -/
inductive Effect
  | push (op : IOOps)
  | write_eventfd
  | close (fd : RawFd)
  deriving Repr, DecidableEq

/-- Where the executor's thread stands. A poll ends with some effects and its result. -/
inductive Control
  | recv
  | poll (task : Nat)
  | leave (task : Nat) (effects : List Effect) (result : Status)
  deriving Repr, DecidableEq

/-- Where the selecting thread stands; a batch holds the events it has still to handle. -/
inductive Select
  | epoll_wait
  | events (batch : List RawFd)
  | drain (batch : List RawFd)
  | panicked
  deriving Repr, DecidableEq

inductive Party
  | executor
  | select
  deriving Repr, DecidableEq

/-- `refs` counts the descriptors of a file, and `interest` is the interest list
of the epoll instance, whose entries are `true` while they are armed. `lock` is
the holder of the queue's mutex. -/
structure State where
  fds : RawFd → Option File
  refs : File → Nat := fun _ => 1
  interest : RawFd → File → Option Bool := fun _ _ => none
  tasks : List Task := [⟨listener, none, .spawned⟩]
  queue : List IOOps := []
  counter : Nat := 0
  lock : Option Party := none
  wakers : HashMap RawFd Nat := ∅
  channel : List Nat := [0]
  control : Control := .recv
  select : Select := .epoll_wait

/-- The standard streams and the epoll instance are open, and so are the eventfd and the listener. -/
def initial : State where
  fds fd :=
    if fd < event then some .other
    else if fd = event then some .eventfd
    else if fd = listener then some (.socket 0)
    else none

/-- `block` is a future that finds its socket `WouldBlock`, `finish` a
`read_line` that gives `None`, `effect` the next effect of the executor's
thread; the others are named by what they do in the code. -/
inductive Event
  | recv (task : Nat)
  | accept (writer reader : RawFd)
  | block
  | finish (writer_first : Bool)
  | effect
  | returned
  | epoll_wait (ready : List (RawFd × File))
  | wake (fd : RawFd)
  | lock
  | request (op : IOOps)
  | read_eventfd
  | again
  deriving Repr, DecidableEq

namespace State

def setStatus (state : State) (task : Nat) (status : Status) : State :=
  { state with tasks := state.tasks.modify task fun task => { task with status } }

/-- The kernel drops a file, and its registrations, with its last descriptor. -/
def close (state : State) (fd : RawFd) : State :=
  match state.fds fd with
  | none => state
  | some file =>
    { state with
      fds := Function.update state.fds fd none
      refs := Function.update state.refs file (state.refs file - 1)
      interest := fun other of => if of = file ∧ state.refs file = 1 then none else state.interest other of }

def register (state : State) (fd : RawFd) (file : File) (entry : Option Bool) : State :=
  { state with interest := fun other of => if other = fd ∧ of = file then entry else state.interest other of }

/-- A descriptor that is in the interest list already is armed again. -/
def add_event (state : State) (fd : RawFd) (task : Nat) : State :=
  match state.fds fd with
  | none => { state with select := .panicked }
  | some file =>
    if state.wakers[fd]? = none then
      { state.register fd file (some true) with wakers := state.wakers.insert fd task }
    else
      { state.register fd file (some true) with select := .panicked }

/-- The error of `EpollCtlDel` is dropped. -/
def rm_event (state : State) (fd : RawFd) : State :=
  match state.fds fd with
  | none => { state with wakers := state.wakers.erase fd }
  | some file => { state.register fd file none with wakers := state.wakers.erase fd }

def request (state : State) : IOOps → State
  | .ADD fd task => state.add_event fd task
  | .REMOVE fd => state.rm_event fd

/-- The eventfd is level-triggered, and a socket is reported once after each arming. -/
def reported (state : State) (ready : RawFd × File) : Bool :=
  if ready.2 = .eventfd then decide (ready.1 = event ∧ state.counter ≠ 0)
  else state.interest ready.1 ready.2 == some true

/-- What drops the reader and the writer of a connection. -/
def dropped (fd writer : RawFd) (writer_first : Bool) : List Effect :=
  let reader := [.push (.REMOVE fd), .write_eventfd, .close fd]
  if writer_first then .close writer :: reader else reader ++ [.close writer]

/-- An eventfd blocks a write beyond this value. -/
def counterMax : Nat := 2 ^ 64 - 2

def perform (state : State) : Effect → Option State
  | .push op =>
    if state.lock = none then some { state with queue := state.queue ++ [op], lock := some .executor } else none
  | .write_eventfd =>
    if state.counter < counterMax then some { state with counter := state.counter + 1, lock := none } else none
  | .close fd => some (state.close fd)

end State

def step (state : State) : Event → Option State
  | .recv task =>
    match state.control, state.channel with
    | .recv, first :: rest =>
      if first = task then some { state.setStatus task .polling with channel := rest, control := .poll task } else none
    | _, _ => none
  -- `accept`, `try_clone` and `spawn`
  | .accept writer reader =>
    if state.control = .poll 0 ∧ state.fds writer = none ∧ state.fds reader = none ∧ writer ≠ reader then
      let file := File.socket state.tasks.length
      some { state with
        fds := Function.update (Function.update state.fds writer (some file)) reader (some file)
        refs := Function.update state.refs file 2
        tasks := state.tasks ++ [⟨reader, some writer, .spawned⟩]
        channel := state.channel ++ [state.tasks.length] }
    else none
  | .block =>
    match state.control with
    | .poll task => state.tasks[task]?.map fun found =>
        { state with control := .leave task [.push (.ADD found.fd task), .write_eventfd] .pending }
    | _ => none
  | .finish writer_first =>
    match state.control with
    | .poll task => state.tasks[task]?.bind fun found => found.writer.map fun writer =>
        { state with control := .leave task (State.dropped found.fd writer writer_first) .ready }
    | _ => none
  | .effect =>
    match state.control with
    | .leave task (effect :: effects) result =>
      (state.perform effect).map fun next => { next with control := .leave task effects result }
    | _ => none
  | .returned =>
    match state.control with
    | .leave task [] result => some { state.setStatus task result with control := .recv }
    | _ => none
  | .epoll_wait ready =>
    if state.select = .epoll_wait ∧ ready ≠ [] ∧ ready.length ≤ 1024 ∧ ready.Nodup ∧ ready.all state.reported then
      some { state with
        interest := fun fd file => if (fd, file) ∈ ready then (state.interest fd file).map fun _ => false
          else state.interest fd file
        select := .events (ready.map Prod.fst) }
    else none
  | .wake fd =>
    match state.select with
    | .events (first :: batch) =>
      if first = fd ∧ fd ≠ event then
        match state.wakers[fd]? with
        | none => some { state with select := .panicked }
        | some task => some { state with
            wakers := state.wakers.erase fd, channel := state.channel ++ [task], select := .events batch }
      else none
    | _ => none
  | .lock =>
    match state.select with
    | .events (first :: batch) =>
      if first = event ∧ state.lock = none then some { state with lock := some .select, select := .drain batch } else none
    | _ => none
  | .request op =>
    match state.select, state.queue with
    | .drain _, first :: queue => if first = op then some ({ state with queue := queue }.request op) else none
    | _, _ => none
  | .read_eventfd =>
    match state.select, state.queue with
    | .drain batch, [] =>
      if state.counter ≠ 0 then some { state with counter := 0, lock := none, select := .events batch } else none
    | _, _ => none
  | .again => if state.select = .events [] then some { state with select := .epoll_wait } else none

def server : Machine State Event where
  init := initial
  step := step

end RustAsyncAwait.IoMultiplexing
