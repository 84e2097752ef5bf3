import RustAsyncAwait.Library.Bytes
import RustAsyncAwait.Library.Machine
import RustAsyncAwait.Library.Nonblocking

/-! The asynchronous log of `chap2/logging.rs`: tasks that each write one line
to a file behind a mutex. -/

namespace RustAsyncAwait.Logging
open Library

def newline : UInt8 := 10

/-- An `AsyncWriteFuture`, with what it has returned. -/
structure AsyncWriteFuture where
  entry : String
  result : Option (Except String Bool) := none

/-- `guard` is the task whose poll holds the lock. -/
structure State where
  file : List UInt8
  guard : Option Nat := none
  tasks : List AsyncWriteFuture := []

/-- A poll is its `try_lock` and, if that gets the lock, its `write_all`, whose
writes have these outcomes. -/
inductive Event
  | write_log (entry : String)
  | try_lock (task : Nat)
  | write_all (task : Nat) (outcomes : List WriteResult)
  deriving DecidableEq

/-- `format!("{}\n", self.entry)`. -/
def lined_entry (entry : String) : List UInt8 := as_bytes entry ++ [newline]

def step (state : State) : Event → Option State
  | .write_log entry => some { state with tasks := state.tasks ++ [{ entry }] }
  | .try_lock task =>
    match state.tasks[task]? with
    | some ⟨_, none⟩ =>
      match state.guard with
      | none => some { state with guard := some task }
      -- the task wakes itself and is `Pending`
      | some holder => if holder = task then none else some state
    | _ => none
  | .write_all task outcomes =>
    if state.guard = some task then
      state.tasks[task]?.map fun found =>
        -- the result of `write_all` is printed, and the future is ready with `Ok(true)`
        let (written, _) := write_all (lined_entry found.entry) outcomes
        { state with
          file := state.file ++ written
          guard := none
          tasks := state.tasks.set task { found with result := some (.ok true) } }
    else none

/-- Tasks on one handle, whose file holds these lines already. -/
def logger (earlier : List String) : Machine State Event where
  init := { file := earlier.flatMap lined_entry }
  step := step

end RustAsyncAwait.Logging
