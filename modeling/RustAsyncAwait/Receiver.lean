import RustAsyncAwait.Library.Nonblocking

/-! The future by which chap10's client receives an answer (async_runtime/src/receiver.rs). -/

namespace RustAsyncAwait.Receiver
open Library

variable {ε : Type}

/-- An `io::Error`: `WouldBlock`, or another one with what it carries. -/
inductive IoError (ε : Type)
  | wouldBlock
  | other (err : ε)
  deriving Repr, DecidableEq

/-- What one `read` puts at the front of `local_buf`; nothing at the end of the stream. -/
structure Chunk where
  bytes : List UInt8
  fits : bytes.length ≤ 1024
  deriving DecidableEq

/-- `local_buf` after the read. -/
def Chunk.local_buf (chunk : Chunk) : List UInt8 := chunk.bytes ++ List.replicate (1024 - chunk.bytes.length) 0

def Chunk.eof : Chunk := ⟨[], by simp⟩

structure TcpReceiver where
  buffer : List UInt8
  deriving Repr, DecidableEq

/-- What one poll meets: a `try_lock` that fails, `set_nonblocking` failing, or
a stream whose read has this outcome. -/
inductive Attempt (ε : Type)
  | contended
  | refused (err : IoError ε)
  | read (result : Except (IoError ε) Chunk)

/-- What one poll leaves: the future, how often it has called the waker, and what it returns. -/
structure Polled (ε : Type) where
  receiver : TcpReceiver
  wakes : Nat
  result : PollResult (Except (IoError ε) (List UInt8))

def TcpReceiver.poll (receiver : TcpReceiver) : Attempt ε → Polled ε
  | .contended => ⟨receiver, 1, .pending⟩
  | .refused err => ⟨receiver, 0, .ready (.error err)⟩
  | .read (.ok chunk) =>
    let n := chunk.bytes.length
    if n = 0 then
      ⟨receiver, 0, .ready (.ok receiver.buffer)⟩
    else
      ⟨{ receiver with buffer := receiver.buffer ++ chunk.local_buf.take n }, 1, .pending⟩
  | .read (.error .wouldBlock) => ⟨receiver, 1, .pending⟩
  | .read (.error (.other err)) => ⟨receiver, 0, .ready (.error (.other err))⟩

/-- Its successive polls; none follows one that is `Ready`. -/
def TcpReceiver.polls (receiver : TcpReceiver) : List (Attempt ε) → List (Polled ε)
  | [] => []
  | attempt :: attempts =>
    let polled := receiver.poll attempt
    match polled.result with
    | .pending => polled :: polled.receiver.polls attempts
    | .ready _ => [polled]

/-- What the last of its polls returns. -/
def TcpReceiver.output (receiver : TcpReceiver) (attempts : List (Attempt ε)) :
    Option (PollResult (Except (IoError ε) (List UInt8))) :=
  (receiver.polls attempts).getLast?.map Polled.result

end RustAsyncAwait.Receiver
