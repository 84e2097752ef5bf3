import RustAsyncAwait.Library.Machine
import RustAsyncAwait.Library.Bytes

/-! The future of `tests/wake_from_outside.rs`, which is completed from outside.
Its polls hold the mutex for one step, the trigger task for as long as it loops. -/

namespace RustAsyncAwait.MyFuture
open Library

/-- Every waker of `waker` is one of the task that awaits the future. -/
structure MyFutureState where
  data : Option (List UInt8) := none
  waker : Bool := false
  deriving Repr, DecidableEq

/-- `loop` holds the mutex, and `finished` has left the loop and dropped its guard. -/
inductive TriggerTask
  | recv
  | lock
  | loop
  | finished
  deriving Repr, DecidableEq

inductive Outcome
  | ready (text : String)
  | panicked
  deriving Repr, DecidableEq

/-- `sent` says that `main` has sent on `tx`, `scheduled` that the executor is to
poll the task: it has been spawned or woken, and not been polled since. -/
structure State where
  state : MyFutureState := {}
  sent : Bool := false
  trigger_task : TriggerTask := .recv
  scheduled : Bool := true
  outcome : Option Outcome := none
  deriving Repr, DecidableEq

inductive Event
  | send
  | poll
  | trigger
  deriving Repr, DecidableEq

/-- A poll behind its `lock().unwrap()`. -/
def State.poll (state : State) : State :=
  match state.state.data with
  | some data =>
    let outcome := match from_utf8 data with
      | some text => Outcome.ready text
      | none => .panicked
    { state with state.data := none, scheduled := false, outcome := some outcome }
  | none => { state with state.waker := true, scheduled := false }

/-- The next step of the trigger task. A round of its loop that finds no waker changes nothing. -/
def State.trigger (state : State) (data : List UInt8) : Option State :=
  match state.trigger_task with
  | .recv => if state.sent then some { state with trigger_task := .lock } else none
  | .lock => some { state with state.data := some data, trigger_task := .loop }
  | .loop =>
    if state.state.waker then
      some { state with state.waker := false, scheduled := true, trigger_task := .finished }
    else some state
  | .finished => none

/-- An executor may also poll a task that has not been woken. -/
def State.step (data : List UInt8) (state : State) : Event → Option State
  | .send => if state.sent then none else some { state with sent := true }
  | .poll => if state.outcome = none ∧ state.trigger_task ≠ .loop then some state.poll else none
  | .trigger => state.trigger data

/-- The source stores `b"Hello from the outside"`. -/
def my_future (data : List UInt8) : Machine State Event where
  init := {}
  step := State.step data

end RustAsyncAwait.MyFuture
