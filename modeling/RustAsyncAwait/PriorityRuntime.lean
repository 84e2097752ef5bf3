import RustAsyncAwait.Library.Machine

/-! The runtime of `chap3/async_queue.rs`: two channels of `Runnable`s, with
workers for each of them that steal from the other one. -/

namespace RustAsyncAwait.PriorityRuntime
open Library

inductive FutureType
  | high
  | low
  deriving Repr, DecidableEq

def FutureType.other : FutureType → FutureType
  | .high => .low
  | .low => .high

structure Runtime where
  high_priority_queue_num : Nat
  low_priority_queue_num : Nat
  deriving Repr, DecidableEq

/-- `none` where the subtraction overflows. -/
def Runtime.new (num_cores : Nat) : Option Runtime :=
  if 2 ≤ num_cores then some ⟨num_cores - 2, 1⟩ else none

def Runtime.set_hqnum (runtime : Runtime) (num : Nat) : Runtime := { runtime with high_priority_queue_num := num }

def Runtime.set_lqnum (runtime : Runtime) (num : Nat) : Runtime := { runtime with low_priority_queue_num := num }

/-- A task is `scheduled` while its `Runnable` is in a channel. A task that is
woken while it runs is scheduled again after the run. -/
inductive TaskState
  | scheduled
  | running (woken : Bool)
  | waiting
  | complete
  deriving Repr, DecidableEq

structure Task where
  order : FutureType
  state : TaskState
  deriving Repr, DecidableEq

/-- Where a worker stands in its loop. -/
inductive Place
  | top
  | steal
  | run (task : Nat)
  deriving Repr, DecidableEq

structure Worker where
  order : FutureType
  place : Place := .top
  deriving Repr, DecidableEq

/-- Tasks are named in the order of the spawns, and a `Runnable` by its task. -/
structure State where
  high : List Nat := []
  low : List Nat := []
  tasks : List Task := []
  workers : List Worker
  deriving Repr, DecidableEq

def State.channel (state : State) : FutureType → List Nat
  | .high => state.high
  | .low => state.low

def State.set_channel (state : State) (order : FutureType) (channel : List Nat) : State :=
  match order with
  | .high => { state with high := channel }
  | .low => { state with low := channel }

def State.schedule (state : State) (task : Nat) (order : FutureType) : State :=
  { state with tasks := state.tasks.set task ⟨order, .scheduled⟩ }.set_channel order (state.channel order ++ [task])

/-- `try_recv` is a worker's try of its own channel and `steal` that of the
other one, each with the task it has found. -/
inductive Event
  | spawn_task (order : FutureType)
  | wake (task : Nat)
  | try_recv (worker : Nat) (found : Option Nat)
  | steal (worker : Nat) (found : Option Nat)
  | pending (worker task : Nat)
  | ready (worker task : Nat)
  deriving Repr, DecidableEq

def State.receive (state : State) (worker : Nat) (order channel : FutureType) (missed : Place) (found : Option Nat) :
    Option State :=
  match state.channel channel, found with
  | [], none => some { state with workers := state.workers.set worker ⟨order, missed⟩ }
  | first :: rest, some task =>
    if first = task then
      some { state.set_channel channel rest with
        tasks := state.tasks.set task ⟨channel, .running false⟩
        workers := state.workers.set worker ⟨order, .run task⟩ }
    else none
  | _, _ => none

/-- A run that panics ends like one that is ready: `catch_unwind` drops the panic. -/
def step (state : State) : Event → Option State
  | .spawn_task order =>
    let next : State := { state with tasks := state.tasks ++ [⟨order, .scheduled⟩] }
    some (next.schedule state.tasks.length order)
  | .wake task =>
    match state.tasks[task]? with
    | some ⟨order, .waiting⟩ => some (state.schedule task order)
    | some ⟨order, .running _⟩ => some { state with tasks := state.tasks.set task ⟨order, .running true⟩ }
    | some _ => some state
    | none => none
  | .try_recv worker found =>
    match state.workers[worker]? with
    | some ⟨order, .top⟩ => state.receive worker order order .steal found
    | _ => none
  | .steal worker found =>
    match state.workers[worker]? with
    -- a worker that finds nothing here sleeps
    | some ⟨order, .steal⟩ => state.receive worker order order.other .top found
    | _ => none
  | .pending worker task =>
    match state.workers[worker]?, state.tasks[task]? with
    | some ⟨own, .run running⟩, some ⟨order, .running woken⟩ =>
      if running = task then
        let next : State := { state with workers := state.workers.set worker ⟨own, .top⟩ }
        if woken then some (next.schedule task order)
        else some { next with tasks := state.tasks.set task ⟨order, .waiting⟩ }
      else none
    | _, _ => none
  | .ready worker task =>
    match state.workers[worker]?, state.tasks[task]? with
    | some ⟨own, .run running⟩, some ⟨order, .running _⟩ =>
      if running = task then
        some { state with
          workers := state.workers.set worker ⟨own, .top⟩
          tasks := state.tasks.set task ⟨order, .complete⟩ }
      else none
    | _, _ => none

/-- The workers that the two queues start. -/
def Runtime.workers (runtime : Runtime) : List FutureType :=
  .replicate runtime.high_priority_queue_num .high ++ .replicate runtime.low_priority_queue_num .low

def run (runtime : Runtime) : Machine State Event where
  init := { workers := runtime.workers.map fun order => { order } }
  step := step

end RustAsyncAwait.PriorityRuntime
