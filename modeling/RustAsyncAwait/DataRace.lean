import RustAsyncAwait.Library.Machine
import Mathlib.Algebra.GroupWithZero.Nat

/-! `test_data_race` of `chap11/11_4.rs`: any number of `unsafe_add`s, each a
load of `COUNTER` and a store, on the threads of one runtime. -/

namespace RustAsyncAwait.DataRace
open Library

def usizeSize : Nat := 2 ^ 64

/-- Where an `unsafe_add` stands. It is `panicked` if `value + 1` has overflowed. -/
inductive Task
  | spawned
  | loaded (value : Nat)
  | finished
  | panicked
deriving Repr, DecidableEq

structure State where
  counter : Nat := 0
  tasks : List Task
deriving Repr, DecidableEq

inductive Event
  | load (task : Nat)
  | store (task : Nat)
deriving Repr, DecidableEq

def step (state : State) : Event → Option State
  | .load task =>
    match state.tasks[task]? with
    | some .spawned => some { state with tasks := state.tasks.set task (.loaded state.counter) }
    | _ => none
  | .store task =>
    match state.tasks[task]? with
    | some (.loaded value) =>
      if value + 1 < usizeSize then some { counter := value + 1, tasks := state.tasks.set task .finished }
      else some { state with tasks := state.tasks.set task .panicked }
    | _ => none

def test_data_race (total : Nat) : Machine State Event where
  init := { tasks := .replicate total .spawned }
  step := step

/-- Every `block_on(handle).unwrap()` has returned. -/
def State.joined (state : State) : Prop := ∀ task ∈ state.tasks, task = .finished

end RustAsyncAwait.DataRace
