import RustAsyncAwait.Library.Futures

/-! The executor of `chap5/executor.rs`: a deque of coroutines that yield until
they complete. There are no wakers; a coroutine that yields is queued again. -/

namespace RustAsyncAwait.CoroutineExecutor
open Library

/-- Coroutines are named in the order in which they were added. `running` is the
one on the stack of `poll`. -/
structure State where
  coroutines : List Nat := []
  added : Nat := 0
  running : Option Nat := none
deriving DecidableEq

/-- `poll` resumes this coroutine, and `panic` is a `poll` that finds none. -/
inductive Event
  | add
  | wake (coroutine : Nat)
  | poll (coroutine : Nat)
  | yielded (coroutine : Nat)
  | complete (coroutine : Nat)
  | panic
deriving DecidableEq

/-- `resume` gets no waker, so `wake` never happens. -/
def step (state : State) : Event → Option State
  | .add =>
    if state.running = none then
      some { state with coroutines := state.coroutines ++ [state.added], added := state.added + 1 }
    else none
  | .wake _ => none
  | .poll coroutine =>
    match state.running, state.coroutines with
    | none, first :: rest =>
      if first = coroutine then some { state with coroutines := rest, running := some coroutine } else none
    | _, _ => none
  | .yielded coroutine =>
    if state.running = some coroutine then
      some { state with coroutines := state.coroutines ++ [coroutine], running := none }
    else none
  | .complete coroutine => if state.running = some coroutine then some { state with running := none } else none
  | .panic => if state.running = none ∧ state.coroutines = [] then some state else none

def executor : Machine State Event where
  init := {}
  step := step

/-- `while !executor.coroutines.is_empty() { executor.poll(); }` -/
def thread : PollingMachine State Event where
  toMachine := executor
  polled state := state.running
  own state := state.coroutines.head?.map .poll
  spawn := .add
  wake := .wake
  pending := .yielded
  ready := .complete
  returned
    | .yielded coroutine => some (coroutine, .pending)
    | .complete coroutine => some (coroutine, .ready)
    | _ => none

end RustAsyncAwait.CoroutineExecutor
