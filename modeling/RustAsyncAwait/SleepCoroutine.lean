import RustAsyncAwait.CoroutineExecutor
import RustAsyncAwait.Library.Loops

/-! `SleepCoroutine` and `main` of `chap5/executor.rs`. `clock` gives the readings
of `elapsed`, of which each `resume` takes the next one. -/

namespace RustAsyncAwait.CoroutineExecutor
open Library

structure SleepCoroutine where
  start : Nat
  duration : Nat
deriving Repr, DecidableEq

inductive CoroutineState
  | yielded
  | complete
deriving Repr, DecidableEq

/-- Before `start` nothing has elapsed. -/
def SleepCoroutine.resume (coroutine : SleepCoroutine) (now : Nat) : CoroutineState :=
  if now - coroutine.start ≥ coroutine.duration then .complete else .yielded

/-- `none` is the panic of `unwrap` on an empty deque. -/
def poll (sleeps : Nat → SleepCoroutine) (now : Nat) (executor : State) : Option State :=
  executor.coroutines.head?.bind fun coroutine =>
    (step executor (.poll coroutine)).bind fun executor =>
      match (sleeps coroutine).resume now with
      | .yielded => step executor (.yielded coroutine)
      | .complete => step executor (.complete coroutine)

/-- A round of the `while` loop, which counts them. Nothing happens after a panic. -/
def round (sleeps : Nat → SleepCoroutine) (clock : Nat → Nat) : Option (State × Nat) → Option (Option (State × Nat))
  | none => none
  | some (executor, polls) =>
    if executor.coroutines = [] then none
    else some ((poll sleeps (clock polls) executor).map fun executor => (executor, polls + 1))

/-- The executor to which so many coroutines have been added, 3 in the code. -/
def start (count : Nat) : Option State := executor.runFrom {} (List.replicate count .add)

/-- How often `main` polls before it ends, or `some none` where it panics. -/
def main (sleeps : Nat → SleepCoroutine) (clock : Nat → Nat) (count fuel : Nat) : Option (Option Nat) :=
  (loop (round sleeps clock) fuel ((start count).map fun executor => (executor, 0))).map fun final => final.map Prod.snd

end RustAsyncAwait.CoroutineExecutor
