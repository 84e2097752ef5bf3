import RustAsyncAwait.KeyValueStore

/-! `heartbeat_actor` of `chap8/key_value_store_actor_model.rs` on its own, with
its clock. -/

namespace RustAsyncAwait.HeartbeatActor
open Library
open KeyValueStore (ActorType RoutingMessage)

/-- A reading of the clock, in nanoseconds. -/
abbrev Instant := Int

def from_millis (millis : Nat) : Int := millis * 1000000

/-- When each actor's last heartbeat came. -/
abbrev Seen := ActorType → Option Instant

namespace Seen

def insert (map : Seen) (actor : ActorType) (value : Instant) : Seen :=
  fun other => if other = actor then some value else map other

def remove (map : Seen) (actor : ActorType) : Seen := fun other => if other = actor then none else map other

/-- The entries in the order the map's iterator meets its keys. -/
def iter (map : Seen) (order : List ActorType) : List (ActorType × Instant) :=
  order.filterMap fun key => (map key).map fun value => (key, value)

end Seen

/-- The loop over the entries: what is left of the map, and what the router is sent. -/
def sweep (half_second_ago : Instant) (map : Seen) : List (ActorType × Instant) → Seen × List RoutingMessage
  | [] => (map, [])
  | (key, value) :: entries =>
    if value < half_second_ago then
      match key with
      | .keyValue | .writer => ((map.remove .keyValue).remove .writer, [.reset .keyValue])
    else sweep half_second_ago map entries

structure State where
  now : Instant
  map : Seen := fun _ => none
  sent : List RoutingMessage := []
  returned : Bool := false

/-- What `timeout(200 ms, recv())` gives, with the clock at that moment: a
heartbeat, no message in time, or a channel without senders. In the last case
`order` is that of the map's iterator. -/
inductive Event
  | heartbeat (actor : ActorType) (now : Instant)
  | timeout (now : Instant)
  | close (now : Instant) (order : List ActorType)
  deriving DecidableEq

def Event.now : Event → Instant
  | heartbeat _ now | timeout now | close now _ => now

def State.step (state : State) (event : Event) : Option State :=
  if state.returned = false ∧ state.now ≤ event.now then
    let state := { state with now := event.now }
    match event with
    | .heartbeat actor now => some { state with map := state.map.insert actor now }
    | .timeout _ => some state
    | .close now order =>
      if order.Perm [.keyValue, .writer] then
        let half_second_ago := now - from_millis 500
        let (map, resets) := sweep half_second_ago state.map (state.map.iter order)
        some { state with map, sent := state.sent ++ resets, returned := true }
      else none
  else none

/-- One `heartbeat_actor`, spawned when the clock reads `start`. -/
def heartbeat_actor (start : Instant) : Machine State Event where
  init := { now := start }
  step := State.step

end RustAsyncAwait.HeartbeatActor
