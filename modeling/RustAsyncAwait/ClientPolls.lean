import RustAsyncAwait.HandleClient
import RustAsyncAwait.Library.Loops

/-! The polls of a `handle_client` task of chap10 on a connection whose outcomes
are infinite streams. Between two awaits a poll is a loop. -/

namespace RustAsyncAwait.Server
open Library

/-- What the task meets. `reads` are the results of its reads. `elapsed count polls`
says whether the `Sleep` that is created after so many reads is over when
it has been polled so often before; each is over at last. -/
structure Connection where
  set_nonblocking : Except WriteError Unit
  reads : Nat → ReadResult
  elapsed : Nat → Nat → Bool
  write_all : List WriteResult
  fits : ∀ count bytes, reads count = .ok bytes → bytes.length ≤ local_buf_len
  over_at_last : ∀ count, ∃ polls, elapsed count polls = true

/-- A task with the number of its reads, and of the polls of the `Sleep` it is in. -/
structure Running where
  client : Client
  reads : Nat := 0
  polls : Nat := 0

def Running.operation (running : Running) (connection : Connection) : Operation :=
  match running.client with
  | .set_nonblocking => .set_nonblocking connection.set_nonblocking
  | .read _ => .read (connection.reads running.reads)
  | .sleep _ | .wait _ => .sleep (connection.elapsed running.reads running.polls)
  | .write_all => .write_all connection.write_all

def Running.step (running : Running) (order : ByteOrder) (connection : Connection) : Option Polled :=
  running.client.step order (running.operation connection)

/-- The operations of one poll, `none` where it returns. -/
def poll_round (order : ByteOrder) (connection : Connection) (running : Running) : Option Running :=
  match running.step order connection with
  | some (.continues client) =>
    let reads := match running.client with
      | .read _ => running.reads + 1
      | _ => running.reads
    some { client, reads, polls := 0 }
  | _ => none

/-- What the next poll starts from, if this operation ends one with `Pending`. -/
def poll_again (order : ByteOrder) (connection : Connection) (running : Running) : Option Running :=
  match running.step order connection with
  | some (.pending client) => some { running with client, polls := running.polls + 1 }
  | _ => none

end RustAsyncAwait.Server
