import RustAsyncAwait.Library.HashMap
import RustAsyncAwait.Library.Machine
import Mathlib.Logic.Function.Basic

/-! The counters of `chap7/7_4_2.rs`: each thread of a pool counts in a map of
its own, and `get_complete_count` adds up copies of the maps. -/

namespace RustAsyncAwait.ThreadCounters
open Library

abbrev Counts := HashMap UInt32 UInt32

/-- The part of `something` after its sleep: the increment of `COUNTER`. -/
def something (counter : Counts) (number : UInt32) : Counts :=
  match counter[number]? with
  | some count => counter.insert number (count + 1)
  | none => counter.insert number 1

/-- `*complete_counter.entry(key).or_insert(0) += count` for all entries of a map. -/
def merge (complete_counter extracted_counter : Counts) : Counts :=
  extracted_counter.toList.foldl
    (fun complete_counter entry => complete_counter.insert entry.1 (complete_counter.getD entry.1 0 + entry.2))
    complete_counter

/-- A `get_complete_count` in progress: what the extraction tasks have returned,
how many of them have been awaited, and the sum so far. -/
structure Call where
  extracted : Fin 4 → Option Counts := fun _ => none
  awaited : Nat := 0
  complete_counter : Counts := ∅

/-- `counters` are the `COUNTER`s of the workers, and `result` is what the last call has returned. -/
structure State where
  counters : Fin 4 → Counts := fun _ => ∅
  call : Option Call := none
  result : Option Counts := none

inductive Event
  | something (worker : Fin 4) (number : UInt32)
  | get_complete_count
  | extract_data_from_thread (worker : Fin 4)
  | await (worker : Fin 4)
  | returned
  deriving DecidableEq

/-- An increment and an extraction do not await, so each is one step of its worker. -/
def step (state : State) : Event → Option State
  | .something worker number =>
    some { state with
      counters := Function.update state.counters worker (something (state.counters worker) number) }
  | .get_complete_count =>
    match state.call with
    | none => some { state with call := some {}, result := none }
    | some _ => none
  | .extract_data_from_thread worker =>
    match state.call with
    | some call =>
      match call.extracted worker with
      | none => some { state with
          call := some { call with extracted := Function.update call.extracted worker (some (state.counters worker)) } }
      | some _ => none
    | none => none
  | .await worker =>
    match state.call with
    | some call =>
      match call.extracted worker with
      | some counter =>
        if worker = call.awaited then
          some { state with
            call := some { call with
              awaited := call.awaited + 1
              complete_counter := merge call.complete_counter counter } }
        else none
      | none => none
    | none => none
  | .returned =>
    match state.call with
    | some call => if call.awaited = 4 then some { state with call := none, result := some call.complete_counter } else none
    | none => none

def pool : Machine State Event where
  init := {}
  step := step

end RustAsyncAwait.ThreadCounters
