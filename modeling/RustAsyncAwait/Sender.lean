import RustAsyncAwait.Library.Nonblocking

/-! The future by which chap10's client sends a message (async_runtime/src/sender.rs). -/

namespace RustAsyncAwait.Sender
open Library

/-- `stream` is what has been put on the shared stream so far. -/
structure TcpSender where
  stream : List UInt8
  buffer : List UInt8
  deriving Repr, DecidableEq

/-- What one poll meets: the mutex held by another, `set_nonblocking` failing,
or a stream whose writes have these outcomes. -/
inductive Attempt
  | contended
  | refused
  | writes (outcomes : List WriteResult)
  deriving Repr, DecidableEq

def TcpSender.poll (sender : TcpSender) : Attempt → TcpSender × PollResult (Except WriteError Unit)
  | .contended => (sender, .pending)
  | .refused => (sender, .ready (.error .failed))
  | .writes outcomes =>
    let (written, result) := write_all sender.buffer outcomes
    let sender := { sender with stream := sender.stream ++ written }
    match result with
    | .ok () => (sender, .ready (.ok ()))
    | .error .wouldBlock => (sender, .pending)
    | .error err => (sender, .ready (.error err))

/-- The sender after some polls, all of which have been `Pending`. -/
def TcpSender.polled (sender : TcpSender) : List Attempt → Option TcpSender
  | [] => some sender
  | attempt :: attempts =>
    match sender.poll attempt with
    | (next, .pending) => next.polled attempts
    | (_, .ready _) => none

end RustAsyncAwait.Sender
