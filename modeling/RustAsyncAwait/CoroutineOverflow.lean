import RustAsyncAwait.CoroutineTest

/-! The coroutines of `chap5/coroutine_test.rs` in the dev profile: an overflow
panics, and a panic while the guard is alive poisons the mutex. -/

namespace RustAsyncAwait.CoroutineOverflow
open Library
open CoroutineTest (MutexCoroutine CoroutineState)

structure Mutex where
  value : UInt8
  locked : Bool := false
  poisoned : Bool := false
  deriving DecidableEq

inductive Resumed
  | yielded
  | complete
  | panicked
  deriving Repr, DecidableEq

def Resumed.of : CoroutineState → Resumed
  | .yielded => .yielded
  | .complete => .complete

/-- `try_lock` fails where the mutex is held, and also where it is poisoned. -/
def Mutex.tried (handle : Mutex) : CoroutineTest.Mutex :=
  { value := handle.value, locked := handle.locked || handle.poisoned }

/-- `MutexCoroutine.resume` where no `u8` leaves its range. The guard is alive while the
counter is raised, and gone when the threshold is lowered. -/
def resume (coroutine : MutexCoroutine) (handle : Mutex) : Resumed × MutexCoroutine × Mutex :=
  let (returned, resumed, tried) := coroutine.resume handle.tried
  let handle_after := { handle with value := tried.value }
  if handle.tried.locked then
    (.of returned, resumed, handle_after)
  else if handle.value = 255 then
    (.panicked, coroutine, { handle with poisoned := true })
  else if coroutine.threshold = 0 then
    (.panicked, coroutine, handle_after)
  else
    (.of returned, resumed, handle_after)

/-- The coroutines on one handle, each with what its last `resume` has come to. -/
structure State where
  handle : Mutex
  coroutines : List (MutexCoroutine × Resumed)
  deriving DecidableEq

/-- `lock` and `unlock` are other parties. -/
inductive Event
  | resume (id : Nat) (result : Resumed)
  | lock
  | unlock
  deriving DecidableEq

/-- A coroutine that is complete is not resumed again. -/
def step (state : State) : Event → Option State
  | .resume id result =>
    match state.coroutines[id]? with
    | some (coroutine, last) =>
      let (returned, coroutine, handle) := resume coroutine state.handle
      if last ≠ .complete ∧ returned = result then some ⟨handle, state.coroutines.set id (coroutine, returned)⟩ else none
    | none => none
  | .lock => if state.handle.locked then none else some { state with handle.locked := true }
  | .unlock => if state.handle.locked then some { state with handle.locked := false } else none

/-- The counter starts anywhere. -/
def coroutines (value : UInt8) (thresholds : List UInt8) : Machine State Event where
  init := { handle := { value }, coroutines := thresholds.map fun threshold => (⟨threshold⟩, .yielded) }
  step := step

end RustAsyncAwait.CoroutineOverflow
