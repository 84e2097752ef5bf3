import RustAsyncAwait.EventBus

/-! `consume_event_bus` of `chap6/event_bus.rs`, any number of times over one
bus, beside the collector and the sends of `main`. -/

namespace RustAsyncAwait.EventBusConsumers
open Library

variable {T : Type}

/-- Where a consumer stands. It is `panicking` after the `unwrap` in `poll`, and
has its handle until `ended`. -/
inductive Place
  | starting
  | looping (id : Nat)
  | breaking (id : Nat)
  | panicking (id : Nat)
  | ended (id : Nat)
deriving DecidableEq

/-- `printed` are the values of its `println!`s, oldest first. -/
structure Consumer (T : Type) where
  place : Place := .starting
  printed : List T := []

structure State (T : Type) where
  bus : EventBus.State T := {}
  consumers : List (Consumer T)

inductive Event (T : Type)
  | subscribe (consumer : Nat)
  | poll (consumer : Nat)
  | drop (consumer : Nat)
  | send (event : T)
  | collect (event : EventBus.Event T)
deriving DecidableEq

/-- What the body of the loop does with the result of a poll. `three` is `event == 3.0`. -/
def Consumer.receive (three : T → Bool) (consumer : Consumer T) (id : Nat) : Option T → Consumer T
  | some event =>
    { place := if three event then .breaking id else .looping id, printed := consumer.printed ++ [event] }
  | none => consumer

/-- The steps of `garbage_collector`. -/
def collects : EventBus.Event T → Bool
  | .lock | .clone | .clear | .remove _ | .unlock => true
  | .subscribe _ | .send _ | .poll _ | .panic _ | .drop _ => false

def State.set (state : State T) (bus : EventBus.State T) (index : Nat) (consumer : Consumer T) : State T :=
  { bus, consumers := state.consumers.set index consumer }

def step (three : T → Bool) (state : State T) : Event T → Option (State T)
  | .subscribe index =>
    match state.consumers[index]? with
    | some ⟨.starting, printed⟩ =>
      let id := state.bus.count
      (EventBus.step state.bus (.subscribe id)).map fun bus => state.set bus index ⟨.looping id, printed⟩
    | _ => none
  | .poll index =>
    match state.consumers[index]? with
    | some ⟨.looping id, printed⟩ =>
      match state.bus.chamber[id]? with
      | some queue =>
        (EventBus.step state.bus (.poll id)).map fun bus =>
          state.set bus index (Consumer.receive three ⟨.looping id, printed⟩ id queue.head?)
      | none =>
        (EventBus.step state.bus (.panic id)).map fun bus => state.set bus index ⟨.panicking id, printed⟩
    | _ => none
  | .drop index =>
    match state.consumers[index]? with
    | some ⟨.breaking id, printed⟩ | some ⟨.panicking id, printed⟩ =>
      (EventBus.step state.bus (.drop id)).map fun bus => state.set bus index ⟨.ended id, printed⟩
    | _ => none
  | .send event => (EventBus.step state.bus (.send event)).map fun bus => { state with bus }
  | .collect event =>
    if collects event then (EventBus.step state.bus event).map fun bus => { state with bus } else none

def consume_event_bus (three : T → Bool) (consumers : Nat) : Machine (State T) (Event T) where
  init := { consumers := .replicate consumers {} }
  step := step three

end RustAsyncAwait.EventBusConsumers
