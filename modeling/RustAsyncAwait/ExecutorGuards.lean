import RustAsyncAwait.Executor
import RustAsyncAwait.Library.Guards

/-! The executor of `executor/src/main.rs` by its single locks, with futures
whose code panics. The panic unwinds out of `run` or `poll`, and their caller
catches it. -/

namespace RustAsyncAwait.ExecutorGuards
open Library
open Executor (Task Caller Control usizeSize)

inductive Mutex
  | waiting
  | polling
  deriving DecidableEq

/-- What is done with the deque and the map while their guards are alive. -/
inductive Action
  | push_back (task : Task)
  | pop_front
  | insert
  | polling_is_empty
  | waiting_is_empty
  | remove (task_id : Nat)
  deriving DecidableEq

abbrev Code := List (Instr Mutex Action)

/-- `code` is what is left of the statement that the thread is in, and the
executor's `control` says where it goes on. While a future's own code runs, `code` is empty. -/
structure State where
  executor : Executor.State := {}
  code : Code := []
  guards : Guards Mutex := {}

/-- `advance` is a step of the thread inside of the executor's code. -/
inductive Event
  | spawn_rcv
  | wake (future : Nat)
  | run
  | poll
  | pending (future : Nat)
  | ready (future : Nat)
  | panic (future : Nat)
  | recv (task_id : Nat)
  | advance
  deriving DecidableEq

def Action.perform (executor : Executor.State) (rest : Code) : Action → Option (Executor.State × Code)
  | .push_back task => some ({ executor with polling := executor.polling ++ [task] }, rest)
  | .pop_front =>
    match executor.control, executor.polling with
    | .poll caller, task :: tasks => some ({ executor with polling := tasks, control := .polling caller task }, rest)
    | .poll caller, [] => some (executor.returnFromPoll caller, rest)
    | _, _ => none
  | .insert =>
    match executor.control with
    | .polling caller task =>
      some ({ executor with waiting := executor.waiting.insert task.task_id task, control := .poll caller }, rest)
    | _ => none
  -- the second operand of `&&` is only evaluated after the first one was true
  | .polling_is_empty =>
    if executor.polling.isEmpty then some (executor, rest ++ statement .waiting .waiting_is_empty)
    else some ({ executor with control := .recv }, rest)
  | .waiting_is_empty => some ({ executor with control := if executor.waiting.isEmpty then .idle else .recv }, rest)
  -- the guard of `waiting` lives to the end of the `if let`
  | .remove task_id =>
    match executor.waiting[task_id]? with
    | some task =>
      some ({ executor with waiting := executor.waiting.erase task_id }, statement .polling (.push_back task) ++ rest)
    | none => some (executor, rest)

/-- The statement with which the thread goes on by itself. -/
def begin_statement : Control → Option Code
  | .poll _ => some (statement .polling .pop_front)
  | .check => some (statement .polling .polling_is_empty)
  | .idle | .polling _ _ | .recv => none

namespace State

/-- The caller has caught the panic. -/
def unwind (state : State) : State :=
  { executor := { state.executor with control := .idle }, code := [], guards := state.guards.unwind }

def advance (state : State) : Option State :=
  match state.code with
  | [] => (begin_statement state.executor.control).map fun code => { state with code }
  | .lock mutex :: rest =>
    -- a thread that locks a mutex twice waits for itself; `unwrap` panics on a poisoned one
    if mutex ∈ state.guards.held then none
    else if mutex ∈ state.guards.poisoned then some state.unwind
    else some { state with code := rest, guards := { state.guards with held := mutex :: state.guards.held } }
  | .drop mutex :: rest =>
    some { state with code := rest, guards := { state.guards with held := state.guards.held.erase mutex } }
  | .act action :: rest =>
    (action.perform state.executor rest).map fun (executor, code) => { state with executor, code }

/-- A future's poll that ends in this state. -/
def returns (state : State) (future : Nat) (after : Caller → State) : Option State :=
  match state.code, state.executor.control with
  | [], .polling caller task => if task.future = future then some (after caller) else none
  | _, _ => none

end State

def step (state : State) : Event → Option State
  | .spawn_rcv =>
    match state.code, state.executor.control with
    | [], .idle | [], .polling _ _ =>
      let task_id := state.executor.count
      some { state with
        executor := { state.executor with
          count := (task_id + 1) % usizeSize, wakers := state.executor.wakers ++ [task_id] }
        code := statement .polling (.push_back ⟨state.executor.wakers.length, task_id⟩) }
    | _, _ => none
  | .wake future =>
    state.executor.wakers[future]?.map fun task_id => { state with executor := state.executor.send task_id }
  | .run =>
    if state.code = [] ∧ state.executor.control = .idle then
      some { state with executor := { state.executor with control := .poll .run } }
    else none
  | .poll =>
    if state.code = [] ∧ state.executor.control = .idle then
      some { state with executor := { state.executor with control := .poll .owner } }
    else none
  | .pending future => state.returns future fun _ => { state with code := statement .waiting .insert }
  | .ready future =>
    state.returns future fun caller => { state with executor := { state.executor with control := .poll caller } }
  | .panic future => state.returns future fun _ => state.unwind
  | .recv task_id =>
    match state.code, state.executor.control, state.executor.channel with
    | [], .recv, received :: rest =>
      if received = task_id then
        some { state with
          executor := { state.executor with channel := rest, control := .poll .run }
          code := statement .waiting (.remove task_id) }
      else none
    | _, _, _ => none
  | .advance => state.advance

def guarded : Machine State Event where
  init := {}
  step := step

end RustAsyncAwait.ExecutorGuards
