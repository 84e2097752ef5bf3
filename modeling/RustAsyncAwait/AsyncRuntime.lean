import RustAsyncAwait.Library.Futures

/-! The executor of `chap10/async_runtime`: one deque, from which every call of
`poll` takes the first task. Its wakers do nothing. -/

namespace RustAsyncAwait.AsyncRuntime
open Library

/-- Tasks are named in the order of the spawns. `running` is the task on the
stack of `poll`. -/
structure State where
  polling : List Nat := []
  spawned : Nat := 0
  running : Option Nat := none
deriving DecidableEq

/-- `empty` is a `poll` that finds no task, and `poll` one that finds this task. -/
inductive Event
  | spawn
  | wake (task : Nat)
  | poll (task : Nat)
  | pending (task : Nat)
  | ready (task : Nat)
  | empty
deriving DecidableEq

/-- `spawn` and `poll` take `&mut self`, so no polled future can call them. -/
def step (state : State) : Event → Option State
  | .spawn =>
    if state.running = none then
      some { state with polling := state.polling ++ [state.spawned], spawned := state.spawned + 1 }
    else none
  | .wake task => if task < state.spawned then some state else none
  | .poll task =>
    match state.running, state.polling with
    | none, first :: rest => if first = task then some { state with polling := rest, running := some task } else none
    | _, _ => none
  | .pending task =>
    if state.running = some task then some { state with polling := state.polling ++ [task], running := none } else none
  | .ready task => if state.running = some task then some { state with running := none } else none
  | .empty => if state.running = none ∧ state.polling = [] then some state else none

def executor : Machine State Event where
  init := {}
  step := step

/-- The future that `main` spawns. Its `count` is an `i32`. -/
structure CountingFuture where
  count : Int32 := 0
deriving DecidableEq

/-- `none` stands for `Pending`. -/
def CountingFuture.poll (future : CountingFuture) : Option Int32 × CountingFuture :=
  let future := { future with count := future.count + 1 }
  if future.count = 4 then (some future.count, future) else (none, future)

/-- The owner calls `poll` again and again until the deque is empty. -/
def thread : PollingMachine State Event where
  toMachine := executor
  polled state := state.running
  own state := state.polling.head?.map .poll
  spawn := .spawn
  wake := .wake
  pending := .pending
  ready := .ready
  returned
    | .pending task => some (task, .pending)
    | .ready task => some (task, .ready)
    | _ => none

end RustAsyncAwait.AsyncRuntime
