import RustAsyncAwait.ScheduledCoroutine

/-! The executor of `kohno_book_chap5/io_multiplexing.rs`: the code is that of
`scheduled_coroutine.rs`, but a send of the executor's own thread is two steps
here, the call and its return once the channel has room. -/

namespace RustAsyncAwait.BoundedExecutor
open Library

/-- `started` is set when `main` calls `run`. `sending` is the spawn or the wake
whose `send` the thread is in. -/
structure State extends ScheduledCoroutine.State where
  started : Bool := false
  sending : Option ScheduledCoroutine.Event := none
deriving DecidableEq

/-- `spawn` and `wake_by_ref` are calls of the executor's thread, and `sent` is
the return of their `send`; `woken` is a whole `wake_by_ref` of another thread. -/
inductive Event
  | spawn
  | wake_by_ref (task : Nat)
  | sent
  | woken (task : Nat)
  | run
  | recv (task : Nat)
  | pending (task : Nat)
  | ready (task : Nat)
deriving DecidableEq

def State.perform (state : State) (event : ScheduledCoroutine.Event) : Option State :=
  (ScheduledCoroutine.step state.toState event).map fun next => { state with toState := next }

def step (state : State) : Event → Option State
  | .spawn =>
    if state.sending = none ∧ (state.started = false ∨ state.running ≠ none) then
      some { state with sending := some .spawn }
    else none
  | .wake_by_ref task =>
    if state.sending = none ∧ state.running ≠ none ∧ task < state.spawned then
      some { state with sending := some (.wake task) }
    else none
  | .sent => state.sending.bind fun event => { state with sending := none }.perform event
  | .woken task => state.perform (.wake task)
  | .run => if state.sending = none ∧ state.started = false then some { state with started := true } else none
  | .recv task => if state.sending = none ∧ state.started = true then state.perform (.recv task) else none
  | .pending task => if state.sending = none then state.perform (.pending task) else none
  | .ready task => if state.sending = none then state.perform (.ready task) else none

def executor : Machine State Event where
  init := {}
  step := step

end RustAsyncAwait.BoundedExecutor
