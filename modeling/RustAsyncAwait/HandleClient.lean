import RustAsyncAwait.Server

/-! The tasks of chap10's server (server/src/main.rs): every operation on a
connection that `handle_client` makes, in the polls by which a worker runs it. -/

namespace RustAsyncAwait.Server
open Library DataLayer

/-- The length of `local_buf`. -/
def local_buf_len : Nat := 1024

/-- Where the task of a connection stands: at `set_nonblocking`, a read, the
short sleep before another one, the long sleep with what it has decoded, or `write_all`. -/
inductive Client
  | set_nonblocking
  | read (buffer : List UInt8)
  | sleep (buffer : List UInt8)
  | wait (message : Except ErrorKind Data)
  | write_all

/-- An operation with its result; a sleep is over or not. -/
inductive Operation
  | set_nonblocking (result : Except WriteError Unit)
  | read (result : ReadResult)
  | sleep (elapsed : Bool)
  | write_all (outcomes : List WriteResult)

/-- How the poll goes on. -/
inductive Polled
  | continues (client : Client)
  | pending (client : Client)
  | ready (result : Except WriteError Unit)
  | panics

def decode (order : ByteOrder) (buffer : List UInt8) : Except ErrorKind Data :=
  ((Data.deserialize order).perform { bytes := buffer, position := 0 }).1

def hello : List UInt8 := [72, 101, 108, 108, 111, 44, 32, 99, 108, 105, 101, 110, 100, 33]

def Client.step (order : ByteOrder) : Client → Operation → Option Polled
  | .set_nonblocking, .set_nonblocking (.ok ()) => some (.continues (.read []))
  | .set_nonblocking, .set_nonblocking (.error err) => some (.ready (.error err))
  | .read buffer, .read (.ok bytes) =>
    let len := bytes.length
    if len = 0 then some (.continues (.wait (decode order buffer)))
    -- `&local_buf[..len]`
    else if len ≤ local_buf_len then some (.continues (.read (buffer ++ bytes)))
    else some .panics
  | .read buffer, .read .wouldBlock =>
    if buffer.length > 0 then some (.continues (.wait (decode order buffer))) else some (.continues (.sleep buffer))
  | .read buffer, .read .failed => some (.continues (.read buffer))
  | .sleep buffer, .sleep elapsed => if elapsed then some (.continues (.read buffer)) else some (.pending (.sleep buffer))
  | .wait message, .sleep elapsed => if elapsed then some (.continues .write_all) else some (.pending (.wait message))
  | .write_all, .write_all outcomes => some (.ready (Library.write_all hello outcomes).2)
  | _, _ => none

/-- A `read` puts no more into `local_buf` than that holds. -/
def Operation.fits : Operation → Bool
  | .read (.ok bytes) => bytes.length ≤ local_buf_len
  | .set_nonblocking _ | .read .wouldBlock | .read .failed | .sleep _ | .write_all _ => true

/-- The server with the tasks that each worker's executor has spawned. -/
structure Serving where
  server : State
  clients : Fin 3 → Nat → Client := fun _ _ => .set_nonblocking

/-- A step of the server, or an operation in the task that a worker is polling. -/
inductive ServingEvent
  | server (event : Event)
  | client (id : Fin 3) (operation : Operation)

/-- A poll returns where its task does, and not by itself. -/
def Event.returns : Event → Bool
  | .worker _ (.poll (.pending _)) | .worker _ (.poll (.ready _)) => true
  | _ => false

/-- The thread ends by a panic, and drops its receiver. -/
def Worker.unwind (worker : Worker) : Worker := { worker with channel := [], place := .panicked }

def Serving.set (state : Serving) (id : Fin 3) (task : Nat) (client : Client) : Serving :=
  { state with clients := Function.update state.clients id (Function.update (state.clients id) task client) }

def Serving.step (order : ByteOrder) (state : Serving) : ServingEvent → Option Serving
  | .server event =>
    if event.returns then none else (Server.step state.server event).map fun server => { state with server }
  | .client id operation =>
    match (state.server.workers id).place, (state.server.workers id).executor.running with
    | .poll, some task =>
      if operation.fits then
        match (state.clients id task).step order operation with
        | some (.continues client) => some (state.set id task client)
        | some (.pending client) =>
          (Server.step state.server (.worker id (.poll (.pending task)))).map fun server =>
            { state.set id task client with server }
        | some (.ready _) =>
          (Server.step state.server (.worker id (.poll (.ready task)))).map fun server => { state with server }
        | some .panics => some { state with server := state.server.update id (state.server.workers id).unwind }
        | none => none
      else none
    | _, _ => none

def serving (order : ByteOrder) : Machine Serving ServingEvent where
  init := { server := server.init }
  step := Serving.step order

end RustAsyncAwait.Server
