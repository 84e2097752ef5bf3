import RustAsyncAwait.Library.Futures
import RustAsyncAwait.Library.HashMap
import Mathlib.Algebra.GroupWithZero.Nat

/-! The executor of `executor/src/main.rs`: a deque of tasks that may be polled,
a map of tasks that wait for their waker, and a channel of woken task ids. Only
the executor's own thread touches `polling` and `waiting`; wakers on any thread
touch the sending end of the channel. -/

namespace RustAsyncAwait.Executor
open Library

/-- `AtomicUsize::fetch_add` wraps at this value. -/
def usizeSize : Nat := 2 ^ 64

/-- `future` names the boxed future, in the order of the spawns; `task_id` is
what the code stores and its waker sends. -/
structure Task where
  future : Nat
  task_id : Nat
deriving DecidableEq

/-- Who called `poll`: the loop of `run`, or the executor's owner. -/
inductive Caller
  | run
  | owner
deriving DecidableEq

/-- Where the executor's thread stands. -/
inductive Control
  | idle
  | poll (caller : Caller)
  | polling (caller : Caller) (task : Task)
  | check
  | recv
deriving DecidableEq

/-- The task on the stack of `poll`. -/
def Control.held : Control → Option Task
  | .polling _ task => some task
  | _ => none

/-- `wakers` holds, for every future, the id its waker closure captured. -/
structure State where
  channel : List Nat := []
  count : Nat := 0
  waiting : HashMap Nat Task := ∅
  polling : List Task := []
  wakers : List Nat := []
  control : Control := .idle

/-- The atomic steps, with what they were about. `pop` starts the poll of a
future; the future's code then runs until `pending` or `ready`. -/
inductive Event
  | spawn_rcv
  | wake (future : Nat)
  | run
  | poll
  | pop (future : Nat)
  | pending (future : Nat)
  | ready (future : Nat)
  | drained
  | finish
  | block
  | recv (task_id : Nat)
deriving DecidableEq

namespace State

def spawn_rcv (state : State) : State :=
  let task_id := state.count
  { state with
    count := (state.count + 1) % usizeSize
    polling := state.polling ++ [⟨state.wakers.length, task_id⟩]
    wakers := state.wakers ++ [task_id] }

/-- The closure given to `waker_fn`. -/
def send (state : State) (task_id : Nat) : State :=
  { state with channel := state.channel ++ [task_id] }

/-- The body of `if let Some(task) = waiting.remove(&task_id)` in `run`. -/
def unpark (state : State) (task_id : Nat) : State :=
  match state.waiting[task_id]? with
  | some task => { state with waiting := state.waiting.erase task_id, polling := state.polling ++ [task] }
  | none => state

/-- `poll` returns to its caller once `pop_front` finds nothing. -/
def returnFromPoll (state : State) : Caller → State
  | .run => { state with control := .check }
  | .owner => { state with control := .idle }

end State

/-- One atomic step. Receiving an id and moving its task to `polling` is one
step, since no other thread can see the maps in between. -/
def step (state : State) : Event → Option State
  | .spawn_rcv =>
    match state.control with
    | .idle | .polling _ _ => some state.spawn_rcv
    | _ => none
  | .wake future => state.wakers[future]?.map state.send
  | .run => if state.control = .idle then some { state with control := .poll .run } else none
  | .poll => if state.control = .idle then some { state with control := .poll .owner } else none
  | .pop future =>
    match state.control, state.polling with
    | .poll caller, task :: rest =>
      if task.future = future then some { state with polling := rest, control := .polling caller task } else none
    | _, _ => none
  | .pending future =>
    match state.control with
    | .polling caller task =>
      if task.future = future then
        some { state with waiting := state.waiting.insert task.task_id task, control := .poll caller }
      else none
    | _ => none
  | .ready future =>
    match state.control with
    | .polling caller task =>
      if task.future = future then some { state with control := .poll caller } else none
    | _ => none
  | .drained =>
    match state.control, state.polling with
    | .poll caller, [] => some (state.returnFromPoll caller)
    | _, _ => none
  | .finish =>
    if state.control = .check ∧ state.polling.isEmpty ∧ state.waiting.isEmpty then
      some { state with control := .idle }
    else none
  | .block =>
    if state.control = .check ∧ ¬ (state.polling.isEmpty ∧ state.waiting.isEmpty) then
      some { state with control := .recv }
    else none
  | .recv task_id =>
    match state.control, state.channel with
    | .recv, received :: rest =>
      if received = task_id then
        some ({ state with channel := rest, control := .poll .run }.unpark task_id)
      else none
    | _, _ => none

def executor : Machine State Event where
  init := {}
  step := step

def polled (state : State) : Option Nat := state.control.held.map Task.future

/-- What the thread does by itself. `receiver.recv()` blocks while the channel is empty. -/
def own (state : State) : Option Event :=
  match state.control with
  | .idle | .polling _ _ => none
  | .poll _ =>
    match state.polling with
    | task :: _ => some (.pop task.future)
    | [] => some .drained
  | .check => if state.polling.isEmpty ∧ state.waiting.isEmpty then some .finish else some .block
  | .recv => state.channel.head?.map .recv

def thread : PollingMachine State Event where
  toMachine := executor
  polled := polled
  own := own
  spawn := .spawn_rcv
  wake := .wake
  pending := .pending
  ready := .ready
  returned
    | .pending future => some (future, .pending)
    | .ready future => some (future, .ready)
    | _ => none

/-- `run` has just been called on an executor with these futures spawned. -/
def started {V : Type} (futures : List (Future V)) : Scripted State V :=
  .start { futures.foldl (fun (state : State) _ => state.spawn_rcv) {} with control := .poll .run } futures

end RustAsyncAwait.Executor
