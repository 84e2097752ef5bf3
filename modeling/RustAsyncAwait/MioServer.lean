import RustAsyncAwait.Library.Machine
import RustAsyncAwait.Library.Nonblocking
import RustAsyncAwait.Library.Utf8Lossy

/-! The `ServerFuture` of `chap4/mio_socket.rs` and its clients. A connection is
accepted, read and dropped within one poll, at whose reads the clients may be anywhere. -/

namespace RustAsyncAwait.MioServer
open Library

/-- The length of `buffer`. -/
def buffer_len : Nat := 1024

/-- How much of its message has arrived, and how much of that has been read. -/
structure Client where
  message : List UInt8
  arrived : Nat := 0
  taken : Nat := 0
  closed : Bool := false
  deriving Repr, DecidableEq

/-- What a read finds. -/
def Client.waiting (client : Client) : List UInt8 := (client.message.take client.arrived).drop client.taken

/-- Where the future stands: between two polls, behind a readable event, or in
the read loop over the stream it has accepted. -/
inductive Place
  | idle
  | accept
  | read (client : Nat) (received_data : List UInt8)
  | finished
  | panicked
  deriving Repr, DecidableEq

/-- A poll that has accepted a connection, and has returned. -/
structure Accepted where
  client : Nat
  received_data : List UInt8
  result : PollResult String
  deriving Repr, DecidableEq

/-- `readable` is the edge of the listener that no poll of mio has reported yet. -/
structure State where
  clients : List Client := []
  backlog : List Nat := []
  readable : Bool := false
  place : Place := .idle
  returned : List Accepted := []
  deriving Repr, DecidableEq

/-- Clients connect, send and close; `timeout` and `readable` are what mio's
`poll` can come to, and a poll of the future with a `timeout` is over by it. -/
inductive Event
  | connect (message : List UInt8)
  | send (client count : Nat)
  | close (client : Nat)
  | timeout
  | readable
  | accept
  | read (result : ReadResult)
  deriving Repr, DecidableEq

def State.connect (state : State) (message : List UInt8) : State :=
  { state with
    clients := state.clients ++ [{ message }]
    backlog := state.backlog ++ [state.clients.length]
    readable := true }

/-- The end of the read loop, and of the poll. The stream is dropped. -/
def State.return_ (state : State) (client : Nat) (received_data : List UInt8) : State :=
  if received_data = [] then
    { state with place := .idle, returned := state.returned ++ [⟨client, received_data, .pending⟩] }
  else
    { state with
      place := .finished
      returned := state.returned ++ [⟨client, received_data, .ready (from_utf8_lossy received_data)⟩] }

def State.read (state : State) (index : Nat) (client : Client) (received_data : List UInt8) : ReadResult → Option State
  | .ok bytes =>
    if bytes = [] then
      if client.waiting = [] ∧ client.closed then some (state.return_ index received_data) else none
    else if bytes <+: client.waiting ∧ bytes.length ≤ buffer_len then
      some { state with
        clients := state.clients.set index { client with taken := client.taken + bytes.length }
        place := .read index (received_data ++ bytes) }
    else none
  | .wouldBlock =>
    if client.waiting = [] ∧ client.closed = false then some (state.return_ index received_data) else none
  | .failed => none

def State.step (state : State) : Event → Option State
  | .connect message => if message ≠ [] then some (state.connect message) else none
  | .send index count =>
    state.clients[index]?.bind fun client =>
      if client.arrived + count ≤ client.message.length then
        some { state with clients := state.clients.set index { client with arrived := client.arrived + count } }
      else none
  | .close index =>
    state.clients[index]?.bind fun client =>
      if client.arrived = client.message.length then
        some { state with clients := state.clients.set index { client with closed := true } }
      else none
  | .timeout => if state.place = .idle ∧ state.readable = false then some state else none
  | .readable =>
    if state.place = .idle ∧ state.readable = true then some { state with readable := false, place := .accept } else none
  | .accept =>
    if state.place = .accept then
      match state.backlog with
      | client :: backlog => some { state with backlog, place := .read client [] }
      -- `accept().unwrap()` on `WouldBlock`
      | [] => some { state with place := .panicked }
    else none
  | .read result =>
    match state.place with
    | .read index received_data =>
      state.clients[index]?.bind fun client => state.read index client received_data result
    | _ => none

def server : Machine State Event where
  init := {}
  step := State.step

end RustAsyncAwait.MioServer
