import RustAsyncAwait.HandleClient
import RustAsyncAwait.Sender
import RustAsyncAwait.Receiver

/-! One message of chap10 from end to end: `send_data` (client/src/main.rs) and
the `handle_client` at the other end of its connection, each on its own executor. -/

namespace RustAsyncAwait.ClientServer
open Library DataLayer Server Sender Receiver

/-- The errors that `send_data` returns, by the `?` they come from. -/
inductive SendError
  | connect
  | send (err : WriteError)
  | receive (err : IoError Unit)
  | invalidUtf8
deriving Repr, DecidableEq

/-- Where `send_data` stands. It drops its stream when it returns. -/
inductive Sending
  | connecting
  | sending
  | receiving
  | returned (result : Except SendError String)

/-- The other end is closed when `handle_client` has returned. -/
inductive Serving
  | handle_client (client : Client)
  | returned (result : Except WriteError Unit)
  | panicked

/-- `sender.stream` is all that the client has written, of which the server has
read the first `read` bytes; `answer` is all that the server has written, of
which the client has read `receiver.buffer`. -/
structure State where
  client : Sending := .connecting
  sender : TcpSender
  receiver : TcpReceiver := ⟨[]⟩
  server : Serving := .handle_client .set_nonblocking
  read : Nat := 0
  answer : List UInt8 := []

inductive Event
  | connect (result : Bool)
  | send (attempt : Sender.Attempt)
  | receive (attempt : Receiver.Attempt Unit)
  | serve (operation : Operation)

def Sending.closed : Sending → Bool
  | .returned _ => true
  | .connecting | .sending | .receiving => false

def Serving.closed : Serving → Bool
  | .returned _ | .panicked => true
  | .handle_client _ => false

/-- A read gets some bytes that are on their way, and none only after the other end has been closed. -/
def delivers (on_the_way : List UInt8) (closed : Bool) (bytes : List UInt8) : Prop :=
  bytes <+: on_the_way ∧ (bytes = [] → closed = true ∧ on_the_way = [])

instance (on_the_way : List UInt8) (closed : Bool) (bytes : List UInt8) : Decidable (delivers on_the_way closed bytes) :=
  inferInstanceAs (Decidable (_ ∧ _))

def State.possible (state : State) : Event → Prop
  | .receive (.read (.ok chunk)) =>
    delivers (state.answer.drop state.receiver.buffer.length) state.server.closed chunk.bytes
  | .serve (.read (.ok bytes)) =>
    delivers (state.sender.stream.drop state.read) state.client.closed bytes ∧ bytes.length ≤ local_buf_len
  | _ => True

instance (state : State) : ∀ event, Decidable (state.possible event)
  | .receive (.read (.ok chunk)) =>
    inferInstanceAs (Decidable (delivers (state.answer.drop state.receiver.buffer.length) state.server.closed chunk.bytes))
  | .serve (.read (.ok bytes)) =>
    inferInstanceAs (Decidable (delivers (state.sender.stream.drop state.read) state.client.closed bytes ∧
      bytes.length ≤ local_buf_len))
  | .connect _ | .send _ | .receive .contended | .receive (.refused _) | .receive (.read (.error _))
  | .serve (.set_nonblocking _) | .serve (.sleep _) | .serve (.write_all _) | .serve (.read .wouldBlock)
  | .serve (.read .failed) => .isTrue trivial

def read_bytes : Operation → List UInt8
  | .read result => result.bytes
  | .set_nonblocking _ | .sleep _ | .write_all _ => []

def written_bytes : Operation → List UInt8
  | .write_all outcomes => (Library.write_all hello outcomes).1
  | .set_nonblocking _ | .sleep _ | .read _ => []

/-- How `send_data` goes on after a poll of `TcpSender`. -/
def Sending.sent : PollResult (Except WriteError Unit) → Sending
  | .pending => .sending
  | .ready (.ok ()) => .receiving
  | .ready (.error err) => .returned (.error (.send err))

/-- `String::from_utf8` of what has been received. -/
def answered (bytes : List UInt8) : Except SendError String :=
  match from_utf8 bytes with
  | some text => .ok text
  | none => .error .invalidUtf8

/-- How it goes on after a poll of `TcpReceiver`. -/
def Sending.received : PollResult (Except (IoError Unit) (List UInt8)) → Sending
  | .pending => .receiving
  | .ready (.ok bytes) => .returned (answered bytes)
  | .ready (.error err) => .returned (.error (.receive err))

/-- How `handle_client` goes on after one operation. -/
def Serving.polled : Polled → Serving
  | .continues client | .pending client => .handle_client client
  | .ready result => .returned result
  | .panics => .panicked

def step (order : ByteOrder) (data : Data) (state : State) (event : Event) : Option State :=
  if state.possible event then
    match event with
    | .connect connected =>
      match state.client with
      | .connecting =>
        if connected then some { state with client := .sending, sender := ⟨[], data.serialize order⟩ }
        else some { state with client := .returned (.error .connect) }
      | _ => none
    | .send attempt =>
      match state.client with
      | .sending =>
        let (sender, result) := state.sender.poll attempt
        some { state with client := .sent result, sender }
      | _ => none
    | .receive attempt =>
      match state.client with
      | .receiving =>
        let polled := state.receiver.poll attempt
        some { state with client := .received polled.result, receiver := polled.receiver }
      | _ => none
    | .serve operation =>
      match state.client, state.server with
      | .connecting, _ => none
      | _, .handle_client client =>
        (client.step order operation).map fun polled =>
          { state with
            server := .polled polled
            read := state.read + (read_bytes operation).length
            answer := state.answer ++ written_bytes operation }
      | _, _ => none
  else none

def send_data (order : ByteOrder) (data : Data) : Machine State Event where
  init := { sender := ⟨[], []⟩ }
  step := step order data

end RustAsyncAwait.ClientServer
