import RustAsyncAwait.Library.Nonblocking

/-! The state machine of `chap9/state_machine_pattern.rs`: a `StateFuture` polls
one of two inner futures, which `on` and `off` choose between. -/

namespace RustAsyncAwait.StatePattern
open Library

inductive State
  | On
  | Off
  deriving Repr, DecidableEq

inductive Event
  | SwitchOn
  | SwitchOff
  deriving Repr, DecidableEq

def State.transition (self : State) (event : Event) : State :=
  match self, event with
  | .On, .SwitchOff => .Off
  | .Off, .SwitchOn => .On
  | _, _ => self

/-- The inner futures, with what a poll of each of them returns and leaves. -/
structure StateFuture (F X α β : Type) where
  state : State
  on_future : F
  off_future : X
  on_poll : F → PollResult α × F
  off_poll : X → PollResult β × X

/-- A poll of the inner future that belongs to a state. -/
structure InnerPoll where
  inner : State
  ready : Bool
  deriving Repr, DecidableEq

def is_ready {α : Type} : PollResult α → Bool
  | .pending => false
  | .ready _ => true

/-- What a poll of the whole returns, whether it has woken its own task, and the inner poll it has made. -/
structure Polled (F X α β : Type) where
  result : PollResult State
  woken : Bool
  future : StateFuture F X α β
  made : InnerPoll

namespace StateFuture
variable {F X α β : Type} (self : StateFuture F X α β)

def off : StateFuture F X α β := { self with state := self.state.transition .SwitchOff }

def on : StateFuture F X α β := { self with state := self.state.transition .SwitchOn }

/-- `let _ = inner.poll(cx)`: the result is dropped. -/
def poll : Polled F X α β :=
  match self.state with
  | .On =>
    let (result, inner) := self.on_poll self.on_future
    ⟨.pending, true, { self with on_future := inner }, ⟨.On, is_ready result⟩⟩
  | .Off =>
    let (result, inner) := self.off_poll self.off_future
    ⟨.pending, true, { self with off_future := inner }, ⟨.Off, is_ready result⟩⟩

end StateFuture

inductive Call
  | on
  | off
  | poll
  deriving Repr, DecidableEq

/-- The inner polls of some calls, one after another. -/
def StateFuture.run {F X α β : Type} (self : StateFuture F X α β) : List Call → List InnerPoll
  | [] => []
  | .on :: calls => self.on.run calls
  | .off :: calls => self.off.run calls
  | .poll :: calls => self.poll.made :: self.poll.future.run calls

end RustAsyncAwait.StatePattern
