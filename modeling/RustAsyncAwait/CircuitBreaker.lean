import RustAsyncAwait.Library.Machine

/-! The circuit breaker of `chap9/circuit_breaker_pattern.rs`: tasks and calls of
`spawn_task` around the atomics `OPEN` and `COUNT`. -/

namespace RustAsyncAwait.CircuitBreaker
open Library

/-- A future that touches neither atomic runs like `passing_task`. -/
inductive Future
  | error_task
  | passing_task
  deriving Repr, DecidableEq

/-- `opening` is an `error_task` between its `fetch_add` and its store. -/
inductive Phase
  | running
  | opening
  | finished
  deriving Repr, DecidableEq

structure Task where
  future : Future
  phase : Phase := .running
  deriving Repr, DecidableEq

/-- A call of `spawn_task`, with what it has loaded from `OPEN` and what it has
returned. A `JoinHandle` is the number of its task. -/
structure Call where
  future : Future
  loaded : Option Bool := none
  returned : Option (Except String Nat) := none

structure State where
  opened : Bool := false
  count : UInt64 := 0
  tasks : List Task := []
  calls : List Call := []

/-- A task also starts where its future is awaited without `spawn_task`. -/
inductive Event
  | start (future : Future)
  | fetch_add (task : Nat)
  | store (task : Nat)
  | pass (task : Nat)
  | spawn_task (future : Future)
  | load (call : Nat)
  | returned (call : Nat)
  deriving Repr, DecidableEq

def State.start (state : State) (future : Future) : State := { state with tasks := state.tasks ++ [{ future }] }

/-- `error_task` up to the test of what `fetch_add` has returned. -/
def State.fetch_add (state : State) (task : Nat) : State :=
  let phase := if state.count = 2 then Phase.opening else .finished
  { state with
    count := state.count + 1
    tasks := state.tasks.set task ⟨.error_task, phase⟩ }

/-- `spawn_task` after its load. -/
def State.spawn_task (state : State) (call : Nat) (future : Future) (opened : Bool) : State :=
  if opened = false then
    { state.start future with
      calls := state.calls.set call ⟨future, some opened, some (.ok state.tasks.length)⟩ }
  else
    { state with calls := state.calls.set call ⟨future, some opened, some (.error "Circuit Open")⟩ }

def State.step (state : State) : Event → Option State
  | .start future => some (state.start future)
  | .fetch_add task => if state.tasks[task]? = some ⟨.error_task, .running⟩ then some (state.fetch_add task) else none
  | .store task =>
    if state.tasks[task]? = some ⟨.error_task, .opening⟩ then
      some { state with opened := true, tasks := state.tasks.set task ⟨.error_task, .finished⟩ }
    else none
  | .pass task =>
    if state.tasks[task]? = some ⟨.passing_task, .running⟩ then
      some { state with tasks := state.tasks.set task ⟨.passing_task, .finished⟩ }
    else none
  | .spawn_task future => some { state with calls := state.calls ++ [{ future }] }
  | .load call =>
    match state.calls[call]? with
    | some ⟨future, none, none⟩ => some { state with calls := state.calls.set call ⟨future, some state.opened, none⟩ }
    | _ => none
  | .returned call =>
    match state.calls[call]? with
    | some ⟨future, some opened, none⟩ => some (state.spawn_task call future opened)
    | _ => none

def circuit : Machine State Event where
  init := {}
  step := State.step

end RustAsyncAwait.CircuitBreaker
