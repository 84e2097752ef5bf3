import RustAsyncAwait.PriorityRuntime

/-! `chap3/3_4.rs`: the same channels and workers, with threads that the first
task of each queue starts, and the `CounterFuture`s that `main` spawns. -/

namespace RustAsyncAwait.PriorityThreads
open Library PriorityRuntime

def HIGH_PRIORITY_THREAD_NUM : Nat := 3

/-- The threads of `HIGH_QUEUE` and of `LOW_QUEUE`. -/
def threads : FutureType → Nat
  | .high => HIGH_PRIORITY_THREAD_NUM
  | .low => 1

/-- What the `LazyLock` of this queue still has to start. -/
def new_threads (state : PriorityRuntime.State) (order : FutureType) : List Worker :=
  if state.workers.any fun worker => worker.order = order then [] else .replicate (threads order) { order }

structure CounterFuture where
  count : Nat
  order : FutureType
  deriving Repr, DecidableEq

def CounterFuture.get_order (future : CounterFuture) : FutureType := future.order

/-- `self.count += 1` -/
def CounterFuture.increment (future : CounterFuture) : CounterFuture := { future with count := future.count + 1 }

/-- It calls its waker and is pending, unless it is ready. -/
def CounterFuture.pending (future : CounterFuture) : Bool := future.count < 3

structure State where
  runtime : PriorityRuntime.State := { workers := [] }
  futures : List CounterFuture := []
  deriving Repr, DecidableEq

/-- A worker begins a poll with the task that it has found. -/
def State.begin (futures : List CounterFuture) : Option Nat → List CounterFuture
  | some task => futures.modify task .increment
  | none => futures

/-- A task is spawned with a new `CounterFuture`. Nobody but the poll calls its waker. -/
def step (state : State) (event : Event) : Option State :=
  match event with
  | .spawn_task order =>
    let future : CounterFuture := { count := 0, order }
    let runtime := { state.runtime with workers := state.runtime.workers ++ new_threads state.runtime future.get_order }
    (PriorityRuntime.step runtime event).map fun runtime => { runtime, futures := state.futures ++ [future] }
  | .try_recv _ found | .steal _ found =>
    (PriorityRuntime.step state.runtime event).map fun runtime => { runtime, futures := State.begin state.futures found }
  | .wake task =>
    match state.runtime.tasks[task]?, state.futures[task]? with
    | some ⟨_, .running false⟩, some future =>
      if future.pending then (PriorityRuntime.step state.runtime event).map fun runtime => { state with runtime } else none
    | _, _ => none
  | .pending _ task =>
    match state.runtime.tasks[task]?, state.futures[task]? with
    | some ⟨_, .running true⟩, some future =>
      if future.pending then (PriorityRuntime.step state.runtime event).map fun runtime => { state with runtime } else none
    | _, _ => none
  | .ready _ task =>
    match state.futures[task]? with
    | some future =>
      if future.pending then none else (PriorityRuntime.step state.runtime event).map fun runtime => { state with runtime }
    | none => none

def spawn_task : Machine State Event where
  init := {}
  step := step

end RustAsyncAwait.PriorityThreads
