import RustAsyncAwait.Library.HashMap
import RustAsyncAwait.Library.Machine
import RustAsyncAwait.ReadLine

/-! The echo server of `kohno_book_chap5/epoll_server.rs`, with its clients and
the kernel: descriptors, receive queues, and an epoll instance that is
level-triggered. Streams are in blocking mode, so a read waits for bytes. -/

namespace RustAsyncAwait.EpollServer
open Library ReadLine

abbrev RawFd := Nat

def listen_fd : RawFd := 3

/-- The capacity of a `BufReader` and of a `BufWriter`. -/
def capacity : Nat := 8192

/-- A connection as the kernel sees it. The server has read `taken`, has still
to read `queue`, and has written `echoed`. -/
structure Client where
  taken : List UInt8 := []
  queue : List UInt8 := []
  echoed : List UInt8 := []
  eof : Bool := false
  reset : Bool := false
  deriving Repr, DecidableEq

/-- Whether epoll reports the socket. -/
def Client.readable (client : Client) : Bool := !client.queue.isEmpty || client.eof || client.reset

/-- A `BufReader` on the descriptor `reader` and a `BufWriter` on the key of the
entry. The writer is flushed after each line, so its buffer is empty. -/
structure Entry where
  client : Nat
  reader : RawFd
  buffered : List UInt8 := []
  deriving Repr, DecidableEq

/-- Where the loop stands, with the events of the batch that it has still to handle. -/
inductive Place
  | epoll_wait
  | events (batch : List RawFd)
  | read_line (fd : RawFd) (buf : List UInt8) (batch : List RawFd)
  | returned (fd : RawFd) (buf : List UInt8) (batch : List RawFd)
  | panicked
  | finished
  deriving Repr, DecidableEq

/-- `fds` are the open descriptors, `interest` those that epoll watches, and
`backlog` the clients that have not been accepted. -/
structure State where
  fds : List RawFd := [0, 1, 2, listen_fd, 4]
  interest : List RawFd := [listen_fd]
  fd_to_buf : HashMap RawFd Entry := ∅
  clients : List Client := []
  backlog : List Nat := []
  place : Place := .epoll_wait

/-- The first four are what a client does, `added` says whether `EpollCtlAdd`
succeeds, and the counts are what a raw read or write moves. -/
inductive Event
  | connect
  | send (client : Nat) (bytes : List UInt8)
  | shutdown (client : Nat)
  | reset (client : Nat)
  | epoll_wait (ready : List RawFd)
  | interrupted
  | accept (fd reader : RawFd) (added : Bool)
  | accept_fails
  | try_clone_fails
  | get_mut
  | fill_buf (count : Nat)
  | fill_buf_fails
  | end_of_stream
  | consume
  | invalid
  | close
  | write (count : Nat)
  | write_fails
  | again
  deriving Repr, DecidableEq

namespace State

def connection (state : State) (fd : RawFd) : Option (Entry × Client) :=
  state.fd_to_buf[fd]?.bind fun entry => state.clients[entry.client]?.map fun client => (entry, client)

def ready (state : State) (fd : RawFd) : Bool :=
  if fd = listen_fd then !state.backlog.isEmpty
  else (state.connection fd).any fun found => found.2.readable

def change (state : State) (client : Nat) (event : Client → Client) : Option State :=
  state.clients[client]?.map fun found => { state with clients := state.clients.set client (event found) }

end State

def step (state : State) : Event → Option State
  | .connect =>
    some { state with clients := state.clients ++ [{}], backlog := state.backlog ++ [state.clients.length] }
  | .send client bytes => state.change client fun found =>
    if found.eof || found.reset then found else { found with queue := found.queue ++ bytes }
  | .shutdown client => state.change client fun found => { found with eof := true }
  | .reset client => state.change client fun found => { found with reset := true }
  | .epoll_wait ready =>
    if state.place = .epoll_wait ∧ ready ≠ [] ∧ ready.length ≤ 1024 ∧ ready.Nodup ∧
        ready.all fun fd => fd ∈ state.interest ∧ state.ready fd then
      some { state with place := .events ready }
    else none
  | .interrupted => if state.place = .epoll_wait then some { state with place := .finished } else none
  | .accept fd reader added =>
    match state.place, state.backlog with
    | .events (first :: batch), client :: backlog =>
      -- new descriptors; `insert` finds no entry, and the error of `EpollCtlAdd` is dropped
      if first = listen_fd ∧ fd ∉ state.fds ∧ reader ∉ state.fds ∧ fd ≠ reader ∧ (added = true → fd ∉ state.interest) then
        some { state with
          fds := fd :: reader :: state.fds
          interest := if added then fd :: state.interest else state.interest
          fd_to_buf := state.fd_to_buf.insert fd { client, reader }
          backlog := backlog
          place := .events batch }
      else none
    | _, _ => none
  | .accept_fails =>
    match state.place with
    | .events (first :: batch) => if first = listen_fd then some { state with place := .events batch } else none
    | _ => none
  | .try_clone_fails =>
    match state.place, state.backlog with
    | .events (first :: _), _ :: _ => if first = listen_fd then some { state with place := .panicked } else none
    | _, _ => none
  | .get_mut =>
    match state.place with
    | .events (fd :: batch) =>
      if fd = listen_fd then none
      else if state.fd_to_buf[fd]? = none then some { state with place := .panicked }
      else some { state with place := .read_line fd [] batch }
    | _ => none
  | .fill_buf count =>
    match state.place with
    | .read_line fd _ _ => (state.connection fd).bind fun (entry, client) =>
      let chunk := client.queue.take count
      if entry.buffered = [] ∧ chunk ≠ [] ∧ count ≤ capacity then
        some { state with
          fd_to_buf := state.fd_to_buf.insert fd { entry with buffered := chunk }
          clients := state.clients.set entry.client
            { client with taken := client.taken ++ chunk, queue := client.queue.drop count } }
      else none
    | _ => none
  | .fill_buf_fails =>
    match state.place with
    | .read_line fd _ _ => (state.connection fd).bind fun (entry, _) =>
      if entry.buffered = [] then some { state with place := .panicked } else none
    | _ => none
  | .end_of_stream =>
    match state.place with
    | .read_line fd buf batch => (state.connection fd).bind fun (entry, client) =>
      if entry.buffered = [] ∧ client.queue = [] ∧ client.eof = true then
        some { state with place := .returned fd buf batch }
      else none
    | _ => none
  | .consume =>
    match state.place with
    | .read_line fd buf batch => state.fd_to_buf[fd]?.bind fun entry =>
      match entry.buffered.dropWhile (· != newline) with
      | _ :: rest => some { state with
          fd_to_buf := state.fd_to_buf.insert fd { entry with buffered := rest }
          place := .returned fd (buf ++ entry.buffered.takeWhile (· != newline) ++ [newline]) batch }
      | [] =>
        if entry.buffered = [] then none
        else some { state with
          fd_to_buf := state.fd_to_buf.insert fd { entry with buffered := [] }
          place := .read_line fd (buf ++ entry.buffered) batch }
    | _ => none
  | .invalid =>
    match state.place with
    | .returned _ buf _ => if from_utf8 buf = none then some { state with place := .panicked } else none
    | _ => none
  | .close =>
    match state.place with
    | .returned fd [] batch => state.fd_to_buf[fd]?.map fun entry =>
      if fd ∈ state.interest then
        { state with
          fds := state.fds.filter fun other => other ≠ fd ∧ other ≠ entry.reader
          interest := state.interest.filter (· ≠ fd)
          fd_to_buf := state.fd_to_buf.erase fd
          place := .events batch }
      else { state with place := .panicked }
    | _ => none
  | .write count =>
    match state.place with
    | .returned fd buf batch => (state.connection fd).bind fun (entry, client) =>
      -- a line that the buffer of the writer cannot hold goes to the stream in one raw write
      if from_utf8 buf ≠ none ∧ 0 < count ∧ count ≤ buf.length ∧ (buf.length < capacity → count = buf.length) then
        some { state with
          clients := state.clients.set entry.client { client with echoed := client.echoed ++ buf.take count }
          place := .events batch }
      else none
    | _ => none
  | .write_fails =>
    match state.place with
    | .returned _ buf _ =>
      if from_utf8 buf ≠ none ∧ buf ≠ [] then some { state with place := .panicked } else none
    | _ => none
  | .again => if state.place = .events [] then some { state with place := .epoll_wait } else none

def server : Machine State Event where
  init := {}
  step := step

end RustAsyncAwait.EpollServer
