import RustAsyncAwait.Library.Machine
import RustAsyncAwait.Library.HashMap
import Mathlib.Algebra.GroupWithZero.Nat

/-! The event bus of `chap6/event_bus.rs`, one step for each lock acquisition.
`subscribe`, `poll` and `send` take the chamber lock once and finish under it.
The collector holds it for a whole round, in which it takes the lock of
`dead_ids` twice; a handle's drop takes that lock alone. -/

namespace RustAsyncAwait.EventBus
open Library

/-- `AtomicU32::fetch_add` wraps at this value. -/
def u32Size : Nat := 2 ^ 32

/-- Where `garbage_collector` stands. It holds the chamber lock unless it is
idle, and from the clone on its own copy of the dead ids. -/
inductive Collector
  | idle
  | locked
  | cloned (dead_ids : List Nat)
  | removing (dead_ids : List Nat)
deriving DecidableEq

def Collector.copy : Collector → List Nat
  | .idle | .locked => []
  | .cloned dead_ids | .removing dead_ids => dead_ids

/-- `handles` are the ids of the `EventHandle`s that exist, and `returned` is
what their polls have returned, oldest first. -/
structure State (T : Type) where
  chamber : HashMap Nat (List T) := ∅
  count : Nat := 0
  dead_ids : List Nat := []
  handles : List Nat := []
  returned : List (Nat × Option T) := []
  collector : Collector := .idle

/-- `poll` and `panic` are the two ends of a handle's poll: `pop_front` returns,
or `unwrap` finds that the id is not in the chamber. -/
inductive Event (T : Type)
  | subscribe (id : Nat)
  | send (event : T)
  | poll (id : Nat)
  | panic (id : Nat)
  | drop (id : Nat)
  | lock
  | clone
  | clear
  | remove (id : Nat)
  | unlock
deriving DecidableEq

variable {T : Type}

namespace State

def subscribe (state : State T) : State T :=
  let id := state.count
  { state with
    chamber := state.chamber.insert id []
    count := (state.count + 1) % u32Size
    handles := state.handles ++ [id] }

def poll (state : State T) (id : Nat) (queue : List T) : State T :=
  { state with
    chamber := state.chamber.insert id queue.tail
    returned := state.returned ++ [(id, queue.head?)] }

/-- `push_back(event.clone())` on every queue of the chamber. -/
def send (state : State T) (event : T) : State T :=
  { state with chamber := state.chamber.map fun _ queue => queue ++ [event] }

def unsubscribe (state : State T) (id : Nat) : State T :=
  { state with dead_ids := state.dead_ids ++ [id] }

end State

def step (state : State T) : Event T → Option (State T)
  | .subscribe id =>
    if state.collector = .idle ∧ id = state.count then some state.subscribe else none
  | .send event =>
    if state.collector = .idle then some (state.send event) else none
  | .poll id =>
    if state.collector = .idle ∧ id ∈ state.handles then state.chamber[id]?.map (state.poll id) else none
  | .panic id =>
    if state.collector = .idle ∧ id ∈ state.handles ∧ state.chamber[id]? = none then some state else none
  | .drop id =>
    if id ∈ state.handles then some ({ state with handles := state.handles.erase id }.unsubscribe id) else none
  | .lock =>
    if state.collector = .idle then some { state with collector := .locked } else none
  | .clone =>
    if state.collector = .locked then some { state with collector := .cloned state.dead_ids } else none
  | .clear =>
    match state.collector with
    | .cloned dead_ids => some { state with dead_ids := [], collector := .removing dead_ids }
    | _ => none
  | .remove id =>
    match state.collector with
    | .removing (dead :: rest) =>
      if dead = id then some { state with chamber := state.chamber.erase id, collector := .removing rest } else none
    | _ => none
  | .unlock =>
    if state.collector = .removing [] then some { state with collector := .idle } else none

def eventBus (T : Type) : Machine (State T) (Event T) where
  init := {}
  step := step

end RustAsyncAwait.EventBus
