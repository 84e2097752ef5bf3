import RustAsyncAwait.Library.Futures

/-! The executor of `kohno_book_chap5/scheduled_coroutine.rs`. A task is its own
waker: waking it sends its `Arc` into the bounded channel that `run` receives from. -/

namespace RustAsyncAwait.ScheduledCoroutine
open Library

/-- `sync_channel(1024)`. -/
def capacity : Nat := 1024

/-- The channel holds `Arc<Task>`s; tasks are named in the order of the spawns.
`running` is the task whose future `run` has locked. -/
structure State where
  channel : List Nat := []
  spawned : Nat := 0
  running : Option Nat := none
deriving DecidableEq

inductive Event
  | spawn
  | wake (task : Nat)
  | recv (task : Nat)
  | pending (task : Nat)
  | ready (task : Nat)
deriving DecidableEq

/-- `send` blocks while the channel is full. -/
def State.send (state : State) (task : Nat) : Option State :=
  if state.channel.length < capacity then some { state with channel := state.channel ++ [task] } else none

def step (state : State) : Event → Option State
  | .spawn => { state with spawned := state.spawned + 1 }.send state.spawned
  | .wake task => if task < state.spawned then state.send task else none
  | .recv task =>
    match state.running, state.channel with
    | none, first :: rest => if first = task then some { state with channel := rest, running := some task } else none
    | _, _ => none
  | .pending task | .ready task => if state.running = some task then some { state with running := none } else none

def executor : Machine State Event where
  init := {}
  step := step

/-- `run` never returns: the executor itself holds a sender. -/
def thread : PollingMachine State Event where
  toMachine := executor
  polled state := state.running
  own state := state.channel.head?.map .recv
  spawn := .spawn
  wake := .wake
  pending := .pending
  ready := .ready
  returned
    | .pending task => some (task, .pending)
    | .ready task => some (task, .ready)
    | _ => none

end RustAsyncAwait.ScheduledCoroutine
