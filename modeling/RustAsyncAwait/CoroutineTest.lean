import RustAsyncAwait.Library.Machine

/-! The coroutines of `chap5/coroutine_test.rs`, which count on a shared mutex. -/

namespace RustAsyncAwait.CoroutineTest
open Library

structure Mutex where
  value : UInt8 := 0
  locked : Bool := false
  deriving DecidableEq

inductive CoroutineState
  | yielded
  | complete
  deriving Repr, DecidableEq

structure MutexCoroutine where
  threshold : UInt8
  deriving DecidableEq

/-- A `u8` wraps around here. It does not where the thresholds are positive and add up to at most 255. -/
def MutexCoroutine.resume (coroutine : MutexCoroutine) (handle : Mutex) : CoroutineState × MutexCoroutine × Mutex :=
  if handle.locked then
    (.yielded, coroutine, handle)
  else
    let handle := { handle with value := handle.value + 1 }
    let coroutine := { coroutine with threshold := coroutine.threshold - 1 }
    if coroutine.threshold = 0 then (.complete, coroutine, handle) else (.yielded, coroutine, handle)

/-- The coroutines on one handle, each with what its last `resume` has returned. -/
structure State where
  handle : Mutex := {}
  coroutines : List (MutexCoroutine × CoroutineState)
  deriving DecidableEq

/-- `lock` and `unlock` are other parties. -/
inductive Event
  | resume (id : Nat) (result : CoroutineState)
  | lock
  | unlock
  deriving DecidableEq

/-- A coroutine that is complete is not resumed again. -/
def step (state : State) : Event → Option State
  | .resume id result =>
    match state.coroutines[id]? with
    | some (coroutine, .yielded) =>
      let (returned, coroutine, handle) := coroutine.resume state.handle
      if returned = result then some ⟨handle, state.coroutines.set id (coroutine, returned)⟩ else none
    | _ => none
  | .lock => if state.handle.locked then none else some { state with handle.locked := true }
  | .unlock => if state.handle.locked then some { state with handle.locked := false } else none

def coroutines (thresholds : List UInt8) : Machine State Event where
  init := { coroutines := thresholds.map fun threshold => (⟨threshold⟩, .yielded) }
  step := step

end RustAsyncAwait.CoroutineTest
