import RustAsyncAwait.Actors
import RustAsyncAwait.Library.HashMap
import RustAsyncAwait.Library.Machine

/-! The table of additions of `chap9/9_1/async_mod.rs`. Any number of threads
call `send_add` and `get_add`; each statement under the lock of `MAP` is a step,
as is each step of `add_handler` outside of it. -/

namespace RustAsyncAwait.AddHandler
open Library
open Actors (Build add_assign)

/-- A task that runs `async_add`. Its outcome is what awaiting its handle gives,
with the text of the `JoinError`. -/
structure Task where
  a : BitVec 32
  b : BitVec 32
  outcome : Option (Except String (BitVec 32)) := none

/-- The sum that ends `async_add`; `none` is a panic. -/
def async_add (build : Build) (a b : BitVec 32) : Option (BitVec 32) := add_assign build a b

inductive Request
  | send_add (a b : BitVec 32)
  | get_add (id : String)
  deriving Repr, DecidableEq

/-- What `add_handler` returns. -/
abbrev Returned := Except String (Option (BitVec 32) × Option String)

/-- Where `add_handler` stands in a call, with its local variables. -/
inductive Handler
  | enter (a b : Option (BitVec 32)) (id : Option String)
  | new_v4 (handle : Nat)
  | insert (id : String) (handle : Nat)
  | block_on (handle : Nat)
  | returned (result : Returned)

/-- `handle` is the one it has spawned or removed from the map, a `JoinHandle`
being named by its task. -/
structure Call where
  request : Request
  handler : Handler
  handle : Option Nat := none

def Request.arguments : Request → Handler
  | send_add a b => .enter (some a) (some b) none
  | get_add id => .enter none none (some id)

def send_add : Returned → Except String String
  | .ok (none, some id) => .ok id
  | .ok _ => .error "Something went wrong, please contact author"
  | .error e => .error e

def get_add : Returned → Except String (BitVec 32)
  | .ok (some result, none) => .ok result
  | .ok _ => .error "Something went wrong, please contact author"
  | .error e => .error e

structure State where
  map : HashMap String Nat := ∅
  tasks : List Task := []
  calls : List Call := []

/-- A call begins, and takes its next step; `new_v4` comes with the id it makes.
A task ends with its sum, or panics. -/
inductive Event
  | call (request : Request)
  | enter (call : Nat)
  | new_v4 (call : Nat) (id : String)
  | insert (call : Nat)
  | join (call : Nat)
  | finish (task : Nat)
  | panic (task : Nat) (text : String)
  deriving Repr, DecidableEq

/-- The id a `send_add` has made. -/
def Call.issued (call : Call) : List String :=
  match call.request, call.handler with
  | .send_add _ _, .insert id _ | .send_add _ _, .returned (.ok (_, some id)) => [id]
  | _, _ => []

def State.set (state : State) (index : Nat) (call : Call) : State := { state with calls := state.calls.set index call }

/-- The `match` at the start of `add_handler`. -/
def State.enter (state : State) (index : Nat) (call : Call) : Option (BitVec 32) → Option (BitVec 32) → Option String → State
  | some a, some b, none =>
    let handle := state.tasks.length
    let task : Task := { a, b }
    { state with tasks := state.tasks ++ [task] }.set index { call with handler := .new_v4 handle, handle := some handle }
  | none, none, some id =>
    match state.map[id]? with
    | some handle =>
      { state with map := state.map.erase id }.set index { call with handler := .block_on handle, handle := some handle }
    | none => state.set index { call with handler := .returned (.error "No handle found") }
  | _, _, _ =>
    state.set index { call with handler := .returned (.error "either a or b need to be provided or a handle_id") }

/-- The other steps of a call; `id` is the one that `new_v4` makes, which never makes it twice. -/
def State.new_v4 (state : State) (index : Nat) (id : String) (call : Call) : Option State :=
  match call.handler with
  | .new_v4 handle =>
    if id ∈ state.calls.flatMap Call.issued then none
    else some (state.set index { call with handler := .insert id handle })
  | _ => none

def State.insert (state : State) (index : Nat) (call : Call) : Option State :=
  match call.handler with
  | .insert id handle =>
    some ({ state with map := state.map.insert id handle }.set index { call with handler := .returned (.ok (none, some id)) })
  | _ => none

def joined : Except String (BitVec 32) → Returned
  | .ok result => .ok (some result, none)
  | .error e => .error e

/-- `block_on` returns once the task has ended. -/
def State.join (state : State) (index : Nat) (call : Call) : Option State :=
  match call.handler with
  | .block_on handle =>
    (state.tasks[handle]?.bind Task.outcome).map fun outcome =>
      state.set index { call with handler := .returned (joined outcome) }
  | _ => none

def Task.finish (build : Build) (task : Task) : Option Task :=
  if task.outcome = none then (async_add build task.a task.b).map fun sum => { task with outcome := some (.ok sum) }
  else none

def Task.panic (task : Task) (text : String) : Option Task :=
  if task.outcome = none then some { task with outcome := some (.error text) } else none

def State.step (build : Build) (state : State) : Event → Option State
  | .call request => some { state with calls := state.calls ++ [{ request, handler := request.arguments }] }
  | .enter index => state.calls[index]?.bind fun call =>
    match call.handler with
    | .enter a b id => some (state.enter index call a b id)
    | _ => none
  | .new_v4 index id => state.calls[index]?.bind (state.new_v4 index id)
  | .insert index => state.calls[index]?.bind (state.insert index)
  | .join index => state.calls[index]?.bind (state.join index)
  | .finish index => (state.tasks[index]?.bind (Task.finish build)).map fun task =>
    { state with tasks := state.tasks.set index task }
  | .panic index text => (state.tasks[index]?.bind (Task.panic · text)).map fun task =>
    { state with tasks := state.tasks.set index task }

def add_handler (build : Build) : Machine State Event where
  init := {}
  step := State.step build

end RustAsyncAwait.AddHandler
